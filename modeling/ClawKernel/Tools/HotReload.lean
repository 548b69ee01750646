import ClawKernel.Lib.Runs
import ClawKernel.Lib.Tables
import ClawKernel.Tools.Validation

/-! `HotReloadProcessor`: watch events are handled one after another, each in several reads of
the file, and files are created, edited and deleted meanwhile. The script compiler is injected
and a parameter. Beside its tool an entry of the registry has the path and the text it was
loaded from, which the code does not keep.
-/
namespace ClawKernel.Tools.HotReload
open Lib Lib.Runs Lib.Tables Validation

inductive WatchEvent where
  | fileChanged (path : FilePath)
  | fileCreated (path : FilePath)
  | fileRemoved (path : FilePath)
  | debounced (paths : List FilePath)
  deriving DecidableEq, Repr

structure HotLoadingConfig where
  extensions : List String
  keepPreviousSecs : Nat

inductive LoadError where
  | fileNotFound (message : String)
  | parseError (message : String)
  | compileError (message : String)
  | io (message : String)
  deriving DecidableEq, Repr

structure ScriptToolCompiler (T : Type) where
  supportsExtension : String → Bool
  compile : FilePath → Text → Except LoadError T

inductive Failure where
  | validation (error : ValidationError)
  | read (message : String)
  | compile (error : LoadError)
  | compileTimeout
  deriving DecidableEq, Repr

inductive ProcessResult where
  | loaded (toolName : String) (path : FilePath)
  | removed (toolName : String)
  | skipped (path : Option FilePath) (reason : String)
  | failed (path : FilePath) (error : Failure)
  deriving DecidableEq, Repr

inductive ToolSource where
  | native
  | script (path : FilePath)
  | dynamic (id : String)
  deriving DecidableEq, Repr

structure Registered (T : Type) where
  tool : T
  origin : Option (FilePath × Text)

/-- Where `handle_file_change` stands: the four checks, the reading, and what follows. -/
inductive Stage (T : Type) where
  | entered
  | checkSyntax
  | auditPermissions
  | validateSchema
  | sandboxCompile
  | reading
  | compiling (content : Text)
  | retiring (content : Text) (tool : T)
  | updating (content : Text) (tool : T)

/-- What `run` is at; `batch` has what is left of a debounced event, with the results so far. -/
inductive Task (T : Type) where
  | waiting
  | batch (paths : List FilePath) (results : List ProcessResult)
  | handling (path : FilePath) (batch : Option (List FilePath × List ProcessResult)) (stage : Stage T)

/-- A file that cannot be read as text has the error's message. `began` is the registry as the
handling of the last path began and `last` what it came to; `gone` are the paths of which a
removal was handled and nothing loaded since. -/
structure State (T : Type) where
  files : FilePath → Option (Except String Text)
  clock : Nat
  events : List WatchEvent
  tools : Table String (Registered T)
  retained : List (T × Nat)
  task : Task T
  logged : List ProcessResult
  began : Table String (Registered T)
  last : Option ProcessResult
  gone : List FilePath

section Processor
variable {T : Type} (name : T → String) (fromStr : String → Except String Json.Value) (config : HotLoadingConfig)
  (compiler : Option (ScriptToolCompiler T))

/-- `register`, which leaves a tool of the same name alone. -/
def register (tools : Table String (Registered T)) (tool : T) : Table String (Registered T) :=
  if name tool ∈ tools then tools else tools.insert (name tool) ⟨tool,none⟩

def start (files : FilePath → Option (Except String Text)) (natives : List T) : State T where
  files := files
  clock := 0
  events := []
  tools := natives.foldl (register name) ∅
  retained := []
  task := .waiting
  logged := []
  began := natives.foldl (register name) ∅
  last := none
  gone := []

def toolMeta (tools : Table String (Registered T)) (toolName : String) : Option ToolSource :=
  (tools.lookup toolName).map (fun _ => .native)

def handleFileRemoved (tools : Table String (Registered T)) (path : FilePath) :
    Table String (Registered T) × ProcessResult :=
  match tools.keys.find? (fun toolName => toolMeta tools toolName = some (.script path)) with
  | some toolName => (tools.erase toolName,.removed toolName)
  | none => (tools,.skipped (some path) "no tool registered for this path")

def isValidExtension (path : FilePath) : Bool := path.extension.any (fun ext => config.extensions.contains ext)

def compileTool (content : Text) (path : FilePath) : Except LoadError T :=
  match compiler with
  | some compiler =>
    if compiler.supportsExtension path.ext then compiler.compile path content
    else .error (.compileError ("no compiler supports extension '" ++ path.ext ++ "' for tool '" ++ path.fileStem ++ "'"))
  | none =>
    .error (.compileError ("no ScriptToolCompiler attached — call with_compiler() to enable script-tool loading (tool: '" ++
      path.fileStem ++ "')"))

def readToString (s : State T) (path : FilePath) : Except String Text :=
  (s.files path).getD (.error "No such file or directory (os error 2)")

def failedToRead (message : String) : String := "failed to read file: " ++ message

/-- The handling of a path is over. -/
def finish (s : State T) (batch : Option (List FilePath × List ProcessResult)) (result : ProcessResult) : State T :=
  match batch with
  | none => { s with task := .waiting, logged := s.logged ++ [result], last := some result }
  | some (paths,results) => { s with task := .batch paths (results ++ [result]), last := some result }

def handleFileChange (s : State T) (path : FilePath) (batch : Option (List FilePath × List ProcessResult)) : State T :=
  { s with task := .handling path batch .entered, began := s.tools }

def retireOldVersion (s : State T) (toolName : String) : List (T × Nat) :=
  match s.tools.lookup toolName with
  | none => s.retained
  | some old => s.retained.filter (fun each => s.clock - each.2 < config.keepPreviousSecs) ++ [(old.tool,s.clock)]

/-- The next step of `handle_file_change`; `stalled` if a timeout runs out in it. -/
def handlingTurn (stalled : Bool) (s : State T) (path : FilePath) (batch : Option (List FilePath × List ProcessResult)) :
    Stage T → State T
  | .entered =>
    let noted := if batch.isSome && (s.files path).isNone then { s with gone := path :: s.gone } else s
    if !isValidExtension config path then finish noted batch (.skipped (some path) "file extension not in watch list")
    else if (s.files path).isNone then finish noted batch (.skipped (some path) "file does not exist")
    else { noted with task := .handling path batch .checkSyntax }
  | .checkSyntax =>
    match readToString s path with
    | .error message => finish s batch (.failed path (.validation (.syntaxError path (failedToRead message))))
    | .ok content =>
      match checkSyntax path.ext content with
      | some message => finish s batch (.failed path (.validation (.syntaxError path message)))
      | none => { s with task := .handling path batch .auditPermissions }
  | .auditPermissions =>
    match readToString s path with
    | .error message => finish s batch (.failed path (.validation (.permissionError path (failedToRead message))))
    | .ok _ => { s with task := .handling path batch .validateSchema }
  | .validateSchema =>
    match readToString s path with
    | .error message => finish s batch (.failed path (.validation (.schemaError path [failedToRead message])))
    | .ok content =>
      match schemaErrors fromStr content with
      | [] => { s with task := .handling path batch .sandboxCompile }
      | errors => finish s batch (.failed path (.validation (.schemaError path errors)))
  | .sandboxCompile =>
    if stalled then finish s batch (.failed path (.validation (.timeoutError path "sandbox compilation")))
    else
      match readToString s path with
      | .error message => finish s batch (.failed path (.validation (.compilationError path (failedToRead message))))
      | .ok content =>
        match compileInIsolation path.ext content with
        | some message => finish s batch (.failed path (.validation (.compilationError path message)))
        | none => { s with task := .handling path batch .reading }
  | .reading =>
    match readToString s path with
    | .error message => finish s batch (.failed path (.read message))
    | .ok content => { s with task := .handling path batch (.compiling content) }
  | .compiling content =>
    if stalled then finish s batch (.failed path .compileTimeout)
    else
      match compileTool compiler content path with
      | .error error => finish s batch (.failed path (.compile error))
      | .ok tool => { s with task := .handling path batch (.retiring content tool) }
  | .retiring content tool =>
    { s with retained := retireOldVersion config s (name tool), task := .handling path batch (.updating content tool) }
  | .updating content tool =>
    finish { s with
      tools := s.tools.insert (name tool) ⟨tool,some (path,content)⟩
      gone := s.gone.filter (· ≠ path) } batch (.loaded (name tool) path)

/-- The next step of `run`. -/
def turn (stalled : Bool) (s : State T) : State T :=
  match s.task with
  | .waiting =>
    match s.events with
    | [] => s
    | .fileChanged path :: events => handleFileChange { s with events := events } path none
    | .fileCreated path :: events => handleFileChange { s with events := events } path none
    | .fileRemoved path :: events =>
      let after := handleFileRemoved s.tools path
      finish { s with events := events, tools := after.1, began := s.tools, gone := path :: s.gone } none after.2
    | .debounced paths :: events => { s with events := events, task := .batch paths [] }
  | .batch [] results =>
    { s with task := .waiting, logged := s.logged ++ [results.head?.getD (.skipped none "empty debounced batch")] }
  | .batch (path :: paths) results => handleFileChange s path (some (paths,results))
  | .handling path batch stage => handlingTurn name fromStr config compiler stalled s path batch stage

inductive Step where
  | edit (path : FilePath) (file : Option (Except String Text))
  | notify (event : WatchEvent)
  | tick (secs : Nat)
  | turn (stalled : Bool)

def step (s : State T) : Step → State T
  | .edit path file => { s with files := Function.update s.files path file }
  | .notify event => { s with events := s.events ++ [event] }
  | .tick secs => { s with clock := s.clock + secs }
  | .turn stalled => turn name fromStr config compiler stalled s

/-- What is registered from a file has passed the checks and compiled, a failure leaves the
registry alone, and nothing is registered from a file that is gone. -/
structure Follows (s : State T) : Prop where
  loaded : ∀ toolName entry path content, s.tools.lookup toolName = some entry → entry.origin = some (path,content) →
    Passes fromStr path.ext content ∧ compileTool compiler content path = .ok entry.tool
  failed : ∀ path error, s.last = some (.failed path error) → s.tools = s.began
  removed : ∀ path ∈ s.gone, ∀ toolName entry content, s.tools.lookup toolName = some entry →
    entry.origin ≠ some (path,content)

/-- Checks were made of the file, and it is still to be read. -/
def Stage.checked : Stage T → Bool
  | .auditPermissions => true
  | .validateSchema => true
  | .sandboxCompile => true
  | .reading => true
  | _ => false

/-- The path whose removal is handled next. -/
def removing (s : State T) : Option FilePath :=
  match s.task with
  | .waiting =>
    match s.events with
    | .fileRemoved path :: _ => some path
    | _ => none
  | .handling path (some _) .entered => if (s.files path).isNone then some path else none
  | _ => none

/-- While a file is checked it is edited only to what passes the checks, and a removal is handled
only of files from which no tool is registered. -/
def Steady (s : State T) : Step → Prop
  | .edit path (some (.ok content)) =>
    ∀ batch stage, s.task = .handling path batch stage → stage.checked = true → Passes fromStr path.ext content
  | .turn _ => ∀ path, removing s = some path → ∀ toolName entry content, s.tools.lookup toolName = some entry →
    entry.origin ≠ some (path,content)
  | _ => True

/-- What is known of the file, or of the text read from it, at each stage. -/
def Checked (files : FilePath → Option (Except String Text)) (path : FilePath) : Stage T → Prop
  | .entered => True
  | .checkSyntax => True
  | .auditPermissions => ∀ content, files path = some (.ok content) → checkSyntax path.ext content = none
  | .validateSchema => ∀ content, files path = some (.ok content) → checkSyntax path.ext content = none
  | .sandboxCompile => ∀ content, files path = some (.ok content) →
    checkSyntax path.ext content = none ∧ schemaErrors fromStr content = []
  | .reading => ∀ content, files path = some (.ok content) → Passes fromStr path.ext content
  | .compiling content => Passes fromStr path.ext content
  | .retiring content tool => Passes fromStr path.ext content ∧ compileTool compiler content path = .ok tool
  | .updating content tool => Passes fromStr path.ext content ∧ compileTool compiler content path = .ok tool

structure Inv (s : State T) : Prop where
  follows : Follows fromStr compiler s
  unchanged : ∀ path batch stage, s.task = .handling path batch stage → s.tools = s.began
  checked : ∀ path batch stage, s.task = .handling path batch stage → Checked fromStr compiler s.files path stage

theorem readToString_ok_iff (s : State T) (path : FilePath) (content : Text) :
    readToString s path = .ok content ↔ s.files path = some (.ok content) := by
  unfold readToString
  cases s.files path with
  | none => exact ⟨(fun clash => by cases clash),(fun clash => by cases clash)⟩
  | some read => rw [Option.getD_some,Option.some_inj]

theorem inv_finish (s : State T) (batch : Option (List FilePath × List ProcessResult)) (result : ProcessResult)
    (loaded : ∀ toolName entry path content, s.tools.lookup toolName = some entry → entry.origin = some (path,content) →
      Passes fromStr path.ext content ∧ compileTool compiler content path = .ok entry.tool)
    (removed : ∀ path ∈ s.gone, ∀ toolName entry content, s.tools.lookup toolName = some entry →
      entry.origin ≠ some (path,content))
    (failed : ∀ path error, result = .failed path error → s.tools = s.began) :
    Inv fromStr compiler (finish s batch result) := by
  cases batch with
  | none =>
    refine ⟨⟨loaded,?_,removed⟩,(fun _ _ _ clash => by cases clash),(fun _ _ _ clash => by cases clash)⟩
    exact fun path error same => failed path error (Option.some_inj.mp same)
  | some batch =>
    refine ⟨⟨loaded,?_,removed⟩,(fun _ _ _ clash => by cases clash),(fun _ _ _ clash => by cases clash)⟩
    exact fun path error same => failed path error (Option.some_inj.mp same)

/-- The handling goes on, and nothing but its stage changes. -/
theorem inv_goes (s : State T) (inv : Inv fromStr compiler s) (path : FilePath)
    (batch : Option (List FilePath × List ProcessResult)) (stage : Stage T) (same : s.tools = s.began)
    (checked : Checked fromStr compiler s.files path stage) :
    Inv fromStr compiler { s with task := .handling path batch stage } := by
  refine ⟨⟨inv.follows.loaded,inv.follows.failed,inv.follows.removed⟩,fun _ _ _ _ => same,?_⟩
  rintro _ _ _ ⟨⟩
  exact checked

theorem inv_begin (s : State T) (inv : Inv fromStr compiler s) (events : List WatchEvent) (path : FilePath)
    (batch : Option (List FilePath × List ProcessResult)) :
    Inv fromStr compiler (handleFileChange { s with events := events } path batch) := by
  refine ⟨⟨inv.follows.loaded,fun _ _ _ => rfl,inv.follows.removed⟩,fun _ _ _ _ => rfl,?_⟩
  rintro _ _ _ ⟨⟩
  trivial

theorem handleFileRemoved_same (tools : Table String (Registered T)) (path : FilePath) :
    handleFileRemoved tools path = (tools,.skipped (some path) "no tool registered for this path") := by
  have native : ∀ toolName, toolMeta tools toolName ≠ some (.script path) := by
    intro toolName
    unfold toolMeta
    cases tools.lookup toolName with
    | none => exact (Option.some_ne_none _).symm
    | some entry => exact fun clash => by cases clash
  have none : tools.keys.find? (fun toolName => toolMeta tools toolName = some (.script path)) = none :=
    List.find?_eq_none.mpr (fun toolName _ => by rw [decide_eq_true_eq]; exact native toolName)
  unfold handleFileRemoved
  rw [none]

/-- What holds of the text that was read holds of whatever the file has. -/
theorem of_read (s : State T) (path : FilePath) (content : Text) (holds : Text → Prop)
    (read : readToString s path = .ok content) (met : holds content) (other : Text)
    (there : s.files path = some (.ok other)) : holds other := by
  rw [readToString_ok_iff,there] at read
  cases read
  exact met

/-- A removal that the handling notices is noted. -/
theorem inv_noted (stalled : Bool) (s : State T) (inv : Inv fromStr compiler s) (path : FilePath)
    (batch : Option (List FilePath × List ProcessResult)) (task : s.task = .handling path batch .entered)
    (steady : Steady fromStr s (.turn stalled)) (missing : (batch.isSome && (s.files path).isNone) = true) :
    Inv fromStr compiler { s with gone := path :: s.gone } := by
  obtain ⟨batched,absent⟩ := Bool.and_eq_true_iff.mp missing
  refine ⟨⟨inv.follows.loaded,inv.follows.failed,?_⟩,inv.unchanged,inv.checked⟩
  intro other member
  rcases List.mem_cons.mp member with rfl | before
  · apply steady other
    obtain ⟨rest,rfl⟩ := Option.isSome_iff_exists.mp batched
    unfold removing
    rw [task]
    exact if_pos absent
  · exact inv.follows.removed other before

theorem inv_entered (stalled : Bool) (s : State T) (inv : Inv fromStr compiler s) (path : FilePath)
    (batch : Option (List FilePath × List ProcessResult)) (task : s.task = .handling path batch .entered)
    (steady : Steady fromStr s (.turn stalled)) :
    Inv fromStr compiler (handlingTurn name fromStr config compiler stalled s path batch .entered) := by
  have same := inv.unchanged path batch .entered task
  have noted : Inv fromStr compiler (if batch.isSome && (s.files path).isNone then { s with gone := path :: s.gone }
      else s) ∧
      (if batch.isSome && (s.files path).isNone then { s with gone := path :: s.gone } else s).tools =
        (if batch.isSome && (s.files path).isNone then { s with gone := path :: s.gone } else s).began := by
    split
    · exact ⟨inv_noted fromStr compiler stalled s inv path batch task steady ‹_›,same⟩
    · exact ⟨inv,same⟩
  simp only [handlingTurn]
  generalize (if batch.isSome && (s.files path).isNone then { s with gone := path :: s.gone } else s) = after at noted ⊢
  obtain ⟨kept,same⟩ := noted
  split
  · exact inv_finish fromStr compiler after batch _ kept.follows.loaded kept.follows.removed (fun _ _ _ => same)
  · split
    · exact inv_finish fromStr compiler after batch _ kept.follows.loaded kept.follows.removed (fun _ _ _ => same)
    · exact inv_goes fromStr compiler after kept path batch _ same trivial

/-- The tool that is registered was made of what was read. -/
theorem inv_updating (stalled : Bool) (s : State T) (inv : Inv fromStr compiler s) (path : FilePath)
    (batch : Option (List FilePath × List ProcessResult)) (content : Text) (tool : T)
    (known : Passes fromStr path.ext content ∧ compileTool compiler content path = .ok tool) :
    Inv fromStr compiler (handlingTurn name fromStr config compiler stalled s path batch (.updating content tool)) := by
  apply inv_finish
  · intro toolName entry other text found origin
    rcases lookup_of_insert s.tools (name tool) toolName _ entry found with ⟨_,rfl⟩ | ⟨_,before⟩
    · cases origin
      exact known
    · exact inv.follows.loaded toolName entry other text before origin
  · intro other member toolName entry text found origin
    obtain ⟨there,apart⟩ := List.mem_filter.mp member
    rcases lookup_of_insert s.tools (name tool) toolName _ entry found with ⟨_,rfl⟩ | ⟨_,before⟩
    · cases origin
      exact of_decide_eq_true apart rfl
    · exact inv.follows.removed other there toolName entry text before origin
  · exact fun _ _ clash => by cases clash

theorem inv_handling (stalled : Bool) (s : State T) (inv : Inv fromStr compiler s) (path : FilePath)
    (batch : Option (List FilePath × List ProcessResult)) (stage : Stage T) (task : s.task = .handling path batch stage)
    (steady : Steady fromStr s (.turn stalled)) :
    Inv fromStr compiler (handlingTurn name fromStr config compiler stalled s path batch stage) := by
  have same := inv.unchanged path batch stage task
  have known := inv.checked path batch stage task
  have fails : ∀ result, Inv fromStr compiler (finish s batch result) :=
    fun result => inv_finish fromStr compiler s batch result inv.follows.loaded inv.follows.removed (fun _ _ _ => same)
  have goes : ∀ stage, Checked fromStr compiler s.files path stage →
      Inv fromStr compiler { s with task := .handling path batch stage } :=
    fun stage checked => inv_goes fromStr compiler s inv path batch stage same checked
  cases stage with
  | entered => exact inv_entered name fromStr config compiler stalled s inv path batch task steady
  | checkSyntax =>
    simp only [handlingTurn]
    split
    · exact fails _
    · rename_i content read
      split
      · exact fails _
      · rename_i clean
        exact goes .auditPermissions (of_read s path content _ read clean)
  | auditPermissions =>
    simp only [handlingTurn]
    split
    · exact fails _
    · exact goes .validateSchema known
  | validateSchema =>
    simp only [handlingTurn]
    split
    · exact fails _
    · rename_i content read
      split
      · rename_i clean
        have checked := known content ((readToString_ok_iff s path content).mp read)
        exact goes .sandboxCompile (of_read s path content _ read ⟨checked,clean⟩)
      · exact fails _
  | sandboxCompile =>
    simp only [handlingTurn]
    split
    · exact fails _
    · split
      · exact fails _
      · rename_i content read
        split
        · exact fails _
        · rename_i clean
          have checked := known content ((readToString_ok_iff s path content).mp read)
          exact goes .reading (of_read s path content _ read ⟨checked.1,checked.2,clean⟩)
  | reading =>
    simp only [handlingTurn]
    split
    · exact fails _
    · rename_i content read
      exact goes (.compiling content) (known content ((readToString_ok_iff s path content).mp read))
  | compiling content =>
    simp only [handlingTurn]
    split
    · exact fails _
    · split
      · exact fails _
      · rename_i tool compiled
        exact goes (.retiring content tool) ⟨known,compiled⟩
  | retiring content tool =>
    exact inv_goes fromStr compiler { s with retained := retireOldVersion config s (name tool) }
      ⟨⟨inv.follows.loaded,inv.follows.failed,inv.follows.removed⟩,inv.unchanged,inv.checked⟩ path batch _ same known
  | updating content tool => exact inv_updating name fromStr config compiler stalled s inv path batch content tool known

theorem inv_turn (stalled : Bool) (s : State T) (inv : Inv fromStr compiler s) (steady : Steady fromStr s (.turn stalled)) :
    Inv fromStr compiler (turn name fromStr config compiler stalled s) := by
  unfold turn
  cases task : s.task with
  | waiting =>
    dsimp only
    cases queue : s.events with
    | nil => exact inv
    | cons event events =>
      cases event with
      | fileChanged path => exact inv_begin fromStr compiler s inv events path none
      | fileCreated path => exact inv_begin fromStr compiler s inv events path none
      | fileRemoved path =>
        dsimp only
        rw [handleFileRemoved_same]
        apply inv_finish
        · exact inv.follows.loaded
        · intro other member
          rcases List.mem_cons.mp member with rfl | before
          · apply steady other
            unfold removing
            rw [task,queue]
          · exact inv.follows.removed other before
        · exact fun _ _ _ => rfl
      | debounced paths =>
        exact ⟨⟨inv.follows.loaded,inv.follows.failed,inv.follows.removed⟩,(fun _ _ _ clash => by cases clash),
          (fun _ _ _ clash => by cases clash)⟩
  | batch paths results =>
    cases paths with
    | nil =>
      exact ⟨⟨inv.follows.loaded,inv.follows.failed,inv.follows.removed⟩,(fun _ _ _ clash => by cases clash),
        (fun _ _ _ clash => by cases clash)⟩
    | cons path paths => exact inv_begin fromStr compiler s inv s.events path _
  | handling path batch stage => exact inv_handling name fromStr config compiler stalled s inv path batch stage task steady

/-- What is known of a file stays known, if it is edited to what passes the checks. -/
theorem checked_edit (files : FilePath → Option (Except String Text)) (edited path : FilePath)
    (file : Option (Except String Text)) (stage : Stage T) (before : Checked fromStr compiler files path stage)
    (passes : path = edited → stage.checked = true → ∀ content, file = some (.ok content) →
      Passes fromStr path.ext content) :
    Checked fromStr compiler (Function.update files edited file) path stage := by
  have either : ∀ content, Function.update files edited file path = some (.ok content) →
      files path = some (.ok content) ∨ path = edited ∧ file = some (.ok content) := by
    intro content there
    by_cases own : path = edited
    · rw [own,Function.update_self] at there
      exact Or.inr ⟨own,there⟩
    · rw [Function.update_of_ne own] at there
      exact Or.inl there
  cases stage with
  | auditPermissions =>
    intro content there
    rcases either content there with old | ⟨own,new⟩
    · exact before content old
    · exact (passes own rfl content new).syntactic
  | validateSchema =>
    intro content there
    rcases either content there with old | ⟨own,new⟩
    · exact before content old
    · exact (passes own rfl content new).syntactic
  | sandboxCompile =>
    intro content there
    rcases either content there with old | ⟨own,new⟩
    · exact before content old
    · exact ⟨(passes own rfl content new).syntactic,(passes own rfl content new).schema⟩
  | reading =>
    intro content there
    rcases either content there with old | ⟨own,new⟩
    · exact before content old
    · exact passes own rfl content new
  | _ => exact before

theorem inv_kept (s : State T) (each : Step) (inv : Inv fromStr compiler s) (steady : Steady fromStr s each) :
    Inv fromStr compiler (step name fromStr config compiler s each) := by
  cases each with
  | edit path file =>
    refine ⟨⟨inv.follows.loaded,inv.follows.failed,inv.follows.removed⟩,inv.unchanged,?_⟩
    intro other batch stage task
    apply checked_edit fromStr compiler s.files path other file stage (inv.checked other batch stage task)
    rintro rfl checked content rfl
    exact steady batch stage task checked
  | notify event => exact ⟨⟨inv.follows.loaded,inv.follows.failed,inv.follows.removed⟩,inv.unchanged,inv.checked⟩
  | tick secs => exact ⟨⟨inv.follows.loaded,inv.follows.failed,inv.follows.removed⟩,inv.unchanged,inv.checked⟩
  | turn stalled => exact inv_turn name fromStr config compiler stalled s inv steady

theorem natives_origin (natives : List T) (tools : Table String (Registered T))
    (before : ∀ toolName entry, tools.lookup toolName = some entry → entry.origin = none) :
    ∀ toolName entry, (natives.foldl (register name) tools).lookup toolName = some entry → entry.origin = none := by
  induction natives generalizing tools with
  | nil => exact before
  | cons tool natives ih =>
    apply ih
    intro toolName entry found
    unfold register at found
    split at found
    · exact before toolName entry found
    · rcases lookup_of_insert tools (name tool) toolName _ entry found with ⟨_,rfl⟩ | ⟨_,old⟩
      · rfl
      · exact before toolName entry old

/-! A file that passes the checks and compiles is loaded. -/

def turns (count : Nat) : List Step := List.replicate count (.turn false)

theorem turns_check (s : State T) (path : FilePath) (batch : Option (List FilePath × List ProcessResult)) (content : Text)
    (task : s.task = .handling path batch .entered) (watched : isValidExtension config path = true)
    (file : s.files path = some (.ok content)) (passes : Passes fromStr path.ext content) :
    run (step name fromStr config compiler) s (turns 5) = { s with task := .handling path batch .reading } := by
  obtain ⟨syntactic,schema,compiles⟩ := passes
  simp [turns,List.replicate,run,step,turn,task,handlingTurn,watched,file,readToString,syntactic,schema,compiles]

theorem turns_update (s : State T) (path : FilePath) (batch : Option (List FilePath × List ProcessResult)) (content : Text)
    (tool : T) (task : s.task = .handling path batch .reading) (file : s.files path = some (.ok content))
    (compiled : compileTool compiler content path = .ok tool) :
    run (step name fromStr config compiler) s (turns 4) =
      finish { s with
        retained := retireOldVersion config s (name tool)
        tools := s.tools.insert (name tool) ⟨tool,some (path,content)⟩
        gone := s.gone.filter (· ≠ path) } batch (.loaded (name tool) path) := by
  cases batch <;>
    simp [turns,List.replicate,run,step,turn,task,handlingTurn,file,readToString,compiled,finish,retireOldVersion]

theorem turns_load (s : State T) (path : FilePath) (batch : Option (List FilePath × List ProcessResult)) (content : Text)
    (tool : T) (task : s.task = .handling path batch .entered) (watched : isValidExtension config path = true)
    (file : s.files path = some (.ok content)) (passes : Passes fromStr path.ext content)
    (compiled : compileTool compiler content path = .ok tool) :
    run (step name fromStr config compiler) s (turns 9) =
      finish { s with
        retained := retireOldVersion config s (name tool)
        tools := s.tools.insert (name tool) ⟨tool,some (path,content)⟩
        gone := s.gone.filter (· ≠ path) } batch (.loaded (name tool) path) := by
  have split : turns 9 = turns 5 ++ turns 4 := rfl
  have updated := turns_update name fromStr config compiler { s with task := .handling path batch .reading }
    path batch content tool rfl file compiled
  rw [split,run_append,turns_check name fromStr config compiler s path batch content task watched file passes]
  refine updated.trans ?_
  cases batch with
  | none => rfl
  | some rest => rfl

/-! While a single event is handled and no other waits, no removal comes up. -/

def Calm (s : State T) : Prop := s.events = [] ∧ (s.task = .waiting ∨ ∃ path stage, s.task = .handling path none stage)

theorem calm_removing (s : State T) (calm : Calm s) : removing s = none := by
  obtain ⟨events,task | ⟨path,stage,task⟩⟩ := calm
  · unfold removing
    rw [task,events]
  · unfold removing
    rw [task]

theorem calm_finish (s : State T) (result : ProcessResult) (calm : Calm s) : Calm (finish s none result) :=
  ⟨calm.1,Or.inl rfl⟩

theorem calm_turn (s : State T) (calm : Calm s) : Calm (turn name fromStr config compiler false s) := by
  have same := calm
  obtain ⟨events,task | ⟨path,stage,task⟩⟩ := calm
  · unfold turn
    rw [task,events]
    exact same
  · have goes : ∀ stage, Calm { s with task := .handling path none stage } := fun stage => ⟨events,Or.inr ⟨path,stage,rfl⟩⟩
    have ends : ∀ result, Calm (finish s none result) := fun result => calm_finish s result same
    unfold turn
    rw [task]
    cases stage with
    | entered =>
      simp only [handlingTurn,Option.isSome_none,Bool.false_and,Bool.false_eq_true,if_false]
      split
      · exact ends _
      · split
        · exact ends _
        · exact goes _
    | checkSyntax =>
      simp only [handlingTurn]
      split
      · exact ends _
      · split
        · exact ends _
        · exact goes _
    | auditPermissions =>
      simp only [handlingTurn]
      split
      · exact ends _
      · exact goes _
    | validateSchema =>
      simp only [handlingTurn]
      split
      · exact ends _
      · split
        · exact goes _
        · exact ends _
    | sandboxCompile =>
      simp only [handlingTurn,Bool.false_eq_true,if_false]
      split
      · exact ends _
      · split
        · exact ends _
        · exact goes _
    | reading =>
      simp only [handlingTurn]
      split
      · exact ends _
      · exact goes _
    | compiling content =>
      simp only [handlingTurn,Bool.false_eq_true,if_false]
      split
      · exact ends _
      · exact goes _
    | retiring content tool => exact ⟨events,Or.inr ⟨path,_,rfl⟩⟩
    | updating content tool => exact ⟨events,Or.inl rfl⟩

theorem calm_steady (count : Nat) (s : State T) (calm : Calm s) :
    Along (step name fromStr config compiler) (Steady fromStr) s (turns count) := by
  induction count generalizing s with
  | zero => trivial
  | succ count ih =>
    refine ⟨?_,ih _ (calm_turn name fromStr config compiler s calm)⟩
    intro path removes
    rw [calm_removing s calm] at removes
    cases removes

/-- Hot reload follows the files in every run in which a file that is checked is edited only to
what passes the checks, and no removal is handled of a file from which a tool is registered. -/
theorem hot_reload_follows_files (files : FilePath → Option (Except String Text)) (natives : List T) (steps : List Step)
    (steady : Along (step name fromStr config compiler) (Steady fromStr) (start name files natives) steps) :
    Always (step name fromStr config compiler) (Follows fromStr compiler) (start name files natives) steps := by
  apply always_mono _ (Inv fromStr compiler) (Follows fromStr compiler) (fun s inv => inv.follows)
  refine always_of_along _ (Steady fromStr) (Inv fromStr compiler) (inv_kept name fromStr config compiler) _ steps ?_ steady
  have native := natives_origin name natives ∅ (fun _ _ found => by cases found)
  refine ⟨⟨?_,(fun _ _ clash => by cases clash),fun _ member => absurd member List.not_mem_nil⟩,
    (fun _ _ _ clash => by cases clash),(fun _ _ _ clash => by cases clash)⟩
  intro toolName entry path content found origin
  rw [native toolName entry found] at origin
  cases origin

end Processor

/-! Runs with one script. -/
section Script

def script : FilePath := ⟨"tools","greet","lua"⟩

def anything : String → Except String Json.Value := fun _ => .ok .null

def lua : HotLoadingConfig := ⟨["lua"],300⟩

/-- Every script compiles, to a tool named like its file. -/
def stem : ScriptToolCompiler String := ⟨fun ext => ext == "lua",fun path _ => .ok path.fileStem⟩

def described : Text :=
  "-- @name: greet\n-- @description: greets everybody\n-- @parameters: null\nreturn \x7b execute = function() end \x7d".toList

def undescribed : Text := "return \x7b execute = function() end \x7d".toList

theorem described_passes : Passes anything "lua" described :=
  ⟨by decide +kernel,by decide +kernel,by decide +kernel⟩

abbrev play (s : State String) : Step → State String := step id anything lua (some stem) s

def empty : State String := start id (fun _ => none) []

def createdSteps : List Step := [.edit script (some (.ok described)),.notify (.fileCreated script),.turn false]

def loadedState : State String where
  files := Function.update (fun _ => none) script (some (.ok described))
  clock := 0
  events := []
  tools := AList.insert "greet" ⟨"greet",some (script,described)⟩ ∅
  retained := []
  task := .waiting
  logged := [.loaded "greet" script]
  began := ∅
  last := some (.loaded "greet" script)
  gone := []

theorem run_created : run play empty (createdSteps ++ turns 9) = loadedState := by
  rw [run_append]
  exact turns_load id anything lua (some stem) (run play empty createdSteps) script none described "greet" rfl rfl rfl
    described_passes rfl

/-- The script has passed the checks and is edited before it is read. -/
def editedState : State String where
  files := Function.update (Function.update (fun _ => none) script (some (.ok described))) script (some (.ok undescribed))
  clock := 0
  events := []
  tools := ∅
  retained := []
  task := .handling script none .reading
  logged := []
  began := ∅
  last := none
  gone := []

theorem run_edited : run play empty (createdSteps ++ turns 5 ++ [.edit script (some (.ok undescribed))]) = editedState := by
  rw [run_append,run_append]
  exact congrArg (fun s => play s (.edit script (some (.ok undescribed))))
    (turns_check id anything lua (some stem) (run play empty createdSteps) script none described rfl rfl rfl
      described_passes)

def edited : List Step := createdSteps ++ turns 5 ++ [.edit script (some (.ok undescribed))] ++ turns 4

def deleted : List Step := createdSteps ++ turns 9 ++ [.edit script none,.notify (.fileRemoved script),.turn false]

def deletedInBatch : List Step :=
  createdSteps ++ turns 9 ++ ([.edit script none,.notify (.debounced [script])] ++ turns 4)

/-- A removal of a file that nobody has loaded, and then a script that is loaded. -/
def unloadedRemoved : List Step := [.notify (.fileRemoved ⟨"tools","old","lua"⟩),.turn false] ++ (createdSteps ++ turns 9)

theorem hot_reload_follows_created : Always play (Follows anything (some stem)) empty unloadedRemoved := by
  apply hot_reload_follows_files id anything lua (some stem) (fun _ => none) [] unloadedRemoved
  refine ⟨trivial,?_,?_,trivial,?_,?_⟩
  · exact fun _ _ _ _ _ found => by cases found
  · rintro batch stage ⟨⟩
  · rintro path ⟨⟩
  · exact calm_steady id anything lua (some stem) 9 _ ⟨rfl,Or.inr ⟨script,.entered,rfl⟩⟩

theorem tool_outlives_script :
    ¬Always play (Follows anything (some stem)) empty edited ∧ ¬Always play (Follows anything (some stem)) empty deleted ∧
      ¬Always play (Follows anything (some stem)) empty deletedInBatch := by
  refine ⟨?_,?_,?_⟩
  · intro always
    have last := always_end play _ empty edited always
    rw [edited,run_append,run_edited,
      turns_update id anything lua (some stem) editedState script none undescribed "greet" rfl rfl rfl] at last
    have passes := (last.loaded "greet" ⟨"greet",some (script,undescribed)⟩ script undescribed rfl rfl).1
    exact absurd passes.schema (by decide)
  · intro always
    have last := always_end play _ empty deleted always
    rw [deleted,run_append,run_created] at last
    exact last.removed script List.mem_cons_self "greet" ⟨"greet",some (script,described)⟩ described rfl rfl
  · intro always
    have last := always_end play _ empty deletedInBatch always
    rw [deletedInBatch,run_append,run_created] at last
    exact last.removed script List.mem_cons_self "greet" ⟨"greet",some (script,described)⟩ described rfl rfl

end Script
end ClawKernel.Tools.HotReload
