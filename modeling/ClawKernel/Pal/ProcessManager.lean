import ClawKernel.Lib.Runs
import Mathlib.Logic.Function.Basic

/-! `TokioProcessManager`: calls over a map from process numbers to children, one access of the map, the
child's mutex or the system a step. A guard of the map's shard is held while a call waits for the mutex
and while it has it; a number is free for a new process as soon as its process is reaped.
-/
namespace ClawKernel.Pal.ProcessManager
open Lib.Runs

inductive Life where
  | running
  | exited
  | reaped
  deriving DecidableEq, Repr

/-- A process with the signals that have reached it. -/
structure Process where
  pid : ℕ
  life : Life
  kills : ℕ
  terms : ℕ

inductive Operation where
  | wait
  | kill
  | terminate
  deriving DecidableEq, Repr

/-- Where a call stands. The process of a `spawn` is the one it has started, that of another call the child
of the map's entry it has a guard of. -/
inductive Phase where
  | idle
  | forked (child : ℕ)
  | collided (child : ℕ)
  | replacing (child : ℕ)
  | inserting (child : ℕ)
  | spawned (child : ℕ)
  | refused (child : ℕ)
  | panicked (child : ℕ)
  | asked (op : Operation) (pid child : ℕ)
  | holding (op : Operation) (pid child : ℕ)
  | reaping (op : Operation) (pid child : ℕ)
  | polling (pid : ℕ)
  | forcing (pid : ℕ)
  | reaped (pid : ℕ)
  | signalling (pid : ℕ)
  | finished
  | notFound (pid : ℕ)
  | signalFailed
  deriving DecidableEq, Repr

/-- The process a `spawn` has started. -/
def Phase.starts : Phase → Option ℕ
  | .forked child | .collided child | .replacing child | .inserting child | .spawned child | .refused child
  | .panicked child => some child
  | _ => none

/-- The process a `spawn` has started and not yet made known or lost. -/
def Phase.brings : Phase → Option ℕ
  | .forked child | .collided child | .replacing child | .inserting child => some child
  | _ => none

/-- The entry a call has a guard of. -/
def Phase.guards : Phase → Option (ℕ × ℕ)
  | .asked _ pid child | .holding _ pid child | .reaping _ pid child => some (pid,child)
  | _ => none

/-- The child whose mutex a call has. -/
def Phase.locks : Phase → Option ℕ
  | .holding _ _ child | .reaping _ _ child => some child
  | _ => none

structure State where
  processes : ℕ → Process
  count : ℕ
  children : ℕ → Option ℕ
  readers : ℕ → List ℕ
  mutex : ℕ → Option ℕ
  calls : ℕ → Phase

def new : State where
  processes := fun _ => ⟨0,.reaped,0,0⟩
  count := 0
  children := fun _ => none
  readers := fun _ => []
  mutex := fun _ => none
  calls := fun _ => .idle

def State.enter (s : State) (n : ℕ) (phase : Phase) : State := { s with calls := Function.update s.calls n phase }

def State.change (s : State) (child : ℕ) (f : Process → Process) : State :=
  { s with processes := Function.update s.processes child (f (s.processes child)) }

/-- The system starts a process. -/
def State.born (s : State) (pid : ℕ) : State :=
  { s with processes := Function.update s.processes s.count ⟨pid,.running,0,0⟩, count := s.count + 1 }

def State.put (s : State) (pid : ℕ) (entry : Option ℕ) : State :=
  { s with children := Function.update s.children pid entry }

def State.lock (s : State) (child : ℕ) (holder : Option ℕ) : State :=
  { s with mutex := Function.update s.mutex child holder }

def State.read (s : State) (shard : ℕ) (readers : List ℕ) : State :=
  { s with readers := Function.update s.readers shard readers }

/-- SIGKILL, sent to a process that is not reaped yet. -/
def Process.struck (process : Process) : Process := { process with kills := process.kills + 1 }

def State.reap (s : State) (child : ℕ) : State := s.change child (fun process => { process with life := .reaped })

theorem reap_self (s : State) (child : ℕ) : ((s.reap child).processes child).life = .reaped := by
  simp [State.reap,State.change]

theorem reap_other (s : State) (child c : ℕ) (other : c ≠ child) : (s.reap child).processes c = s.processes c :=
  Function.update_of_ne other ..

theorem reap_pid (s : State) (child c : ℕ) : ((s.reap child).processes c).pid = (s.processes c).pid := by
  by_cases same : c = child
  · subst same
    simp [State.reap,State.change]
  · rw [reap_other s child c same]

/-- The number is that of a process not yet reaped. -/
def State.taken (s : State) (pid : ℕ) : Prop :=
  ∃ child < s.count, (s.processes child).pid = pid ∧ (s.processes child).life ≠ .reaped

instance (s : State) (pid : ℕ) : Decidable (s.taken pid) := by
  unfold State.taken
  infer_instance

/-- The system's `kill` with SIGTERM: it reaches the process that has the number now. -/
def State.term (s : State) (pid : ℕ) : State :=
  { s with processes := fun child =>
      if child < s.count ∧ (s.processes child).pid = pid ∧ (s.processes child).life ≠ .reaped then
        { s.processes child with terms := (s.processes child).terms + 1 }
      else s.processes child }

inductive Event where
  | fork (n pid : ℕ)
  | call (n : ℕ) (op : Operation) (pid : ℕ)
  | advance (n : ℕ)
  | signal (n pid : ℕ)
  | expire (n : ℕ)
  | exit (child : ℕ)
  deriving DecidableEq, Repr

section Steps
variable (shard : ℕ → ℕ)

/-- A guard of the entry is taken, or the number is not found. -/
def look (s : State) (n : ℕ) (op : Operation) (pid : ℕ) : State :=
  match s.children pid with
  | none => s.enter n (.notFound pid)
  | some child => (s.read (shard pid) (n :: s.readers (shard pid))).enter n (.asked op pid child)

/-- The mutex and the guard are given back. -/
def release (s : State) (n pid child : ℕ) : State :=
  (s.lock child none).read (shard pid) ((s.readers (shard pid)).erase n)

/-- The next access of a call; one that has to wait stays where it is. -/
def advance (s : State) (n : ℕ) : State :=
  match s.calls n with
  | .forked child =>
    match s.children (s.processes child).pid with
    | some _ => s.enter n (.collided child)
    | none => s.enter n (.inserting child)
  | .collided child =>
    if s.readers (shard (s.processes child).pid) ≠ [] then s
    else
      match s.children (s.processes child).pid with
      | none => s.enter n (.panicked child)
      | some old =>
        if s.mutex old ≠ none ∨ (s.processes old).life = .running then s.enter n (.refused child)
        else (s.reap old).enter n (.replacing child)
  | .replacing child =>
    if s.readers (shard (s.processes child).pid) ≠ [] then s
    else (s.put (s.processes child).pid none).enter n (.inserting child)
  | .inserting child =>
    if s.readers (shard (s.processes child).pid) ≠ [] then s
    else (s.put (s.processes child).pid (some child)).enter n (.spawned child)
  | .asked op pid child =>
    match s.mutex child with
    | some _ => s
    | none => (s.lock child (some n)).enter n (.holding op pid child)
  | .holding .wait pid child =>
    if (s.processes child).life = .running then s
    else (release shard (s.reap child) n pid child).enter n (.reaped pid)
  | .holding .kill pid child =>
    if (s.processes child).life = .reaped then (release shard s n pid child).enter n .signalFailed
    else (s.change child Process.struck).enter n (.reaping .kill pid child)
  | .holding .terminate pid child =>
    if (s.processes child).life = .reaped then s.enter n (.reaping .terminate pid child)
    else (s.change child Process.struck).enter n (.reaping .terminate pid child)
  | .reaping _ pid child =>
    if (s.processes child).life = .running then s
    else (release shard (s.reap child) n pid child).enter n (.reaped pid)
  | .polling pid =>
    if s.readers (shard pid) ≠ [] then s
    else
      match s.children pid with
      | none => s.enter n (.notFound pid)
      | some child =>
        if s.mutex child ≠ none ∨ (s.processes child).life = .running then s
        else (s.reap child).enter n (.reaped pid)
  | .forcing pid => look shard s n .terminate pid
  | .reaped pid => if s.readers (shard pid) ≠ [] then s else (s.put pid none).enter n .finished
  | .signalling pid => if s.taken pid then (s.term pid).enter n .finished else s.enter n .signalFailed
  | _ => s

def step (s : State) : Event → State
  | .fork n pid =>
    if s.calls n = .idle ∧ ¬s.taken pid then (s.born pid).enter n (.forked s.count) else s
  | .call n op pid =>
    if s.calls n = .idle then
      if op = .terminate then (s.term pid).enter n (.polling pid) else look shard s n op pid
    else s
  | .advance n => advance shard s n
  | .signal n pid =>
    if s.calls n = .idle then
      match s.children pid with
      | some _ => s.enter n (.signalling pid)
      | none => s.enter n (.notFound pid)
    else s
  | .expire n =>
    match s.calls n with
    | .polling pid => s.enter n (.forcing pid)
    | _ => s
  | .exit child =>
    if (s.processes child).life = .running then s.change child (fun process => { process with life := .exited }) else s

/-- What holds of the processes, the map and the calls in every state that is reached. -/
structure Sound (s : State) : Prop where
  unborn : ∀ c, s.count ≤ c → (s.processes c).life = .reaped
  numbers : ∀ c d, (s.processes c).life ≠ .reaped → (s.processes d).life ≠ .reaped →
    (s.processes c).pid = (s.processes d).pid → c = d
  below : ∀ n c, (s.calls n).starts = some c → c < s.count
  brought : ∀ n c, (s.calls n).brings = some c → (s.processes c).life ≠ .reaped
  once : ∀ m n c, (s.calls m).starts = some c → (s.calls n).starts = some c → m = n
  entries : ∀ pid c, s.children pid = some c → (s.processes c).pid = pid ∧ ∃ n, s.calls n = .spawned c
  guarded : ∀ n pid c, (s.calls n).guards = some (pid,c) → s.children pid = some c ∧ n ∈ s.readers (shard pid)
  locked : ∀ n c, (s.calls n).locks = some c → s.mutex c = some n

theorem sound_new : Sound shard new := by
  constructor <;> simp [new,Phase.starts,Phase.brings,Phase.guards,Phase.locks]

theorem sound_fork (s : State) (n pid : ℕ) (sound : Sound shard s) (idle : s.calls n = .idle) (free : ¬s.taken pid) :
    Sound shard ((s.born pid).enter n (.forked s.count)) := by
  obtain ⟨unborn,numbers,below,brought,once,entries,guarded,locked⟩ := sound
  unfold State.taken at free
  constructor <;> simp only [State.born,State.enter,Function.update_apply] <;>
    grind [Phase.starts,Phase.brings,Phase.guards,Phase.locks]

/-- A call moves on with no more than it had. -/
theorem sound_enter (s : State) (n : ℕ) (phase : Phase) (sound : Sound shard s)
    (moving : ∀ c, s.calls n ≠ .spawned c) (starts : ∀ c, phase.starts = some c → (s.calls n).starts = some c)
    (brings : ∀ c, phase.brings = some c → (s.calls n).brings = some c)
    (guards : ∀ g, phase.guards = some g → (s.calls n).guards = some g)
    (locks : ∀ c, phase.locks = some c → (s.calls n).locks = some c) : Sound shard (s.enter n phase) := by
  obtain ⟨unborn,numbers,below,brought,once,entries,guarded,locked⟩ := sound
  constructor <;> simp only [State.enter,Function.update_apply] <;> grind

/-- Signals and the end of a process leave numbers and calls as they are. -/
theorem sound_processes (s : State) (processes : ℕ → Process) (sound : Sound shard s)
    (pids : ∀ c, (processes c).pid = (s.processes c).pid)
    (lives : ∀ c, (processes c).life = .reaped ↔ (s.processes c).life = .reaped) :
    Sound shard { s with processes := processes } := by
  obtain ⟨unborn,numbers,below,brought,once,entries,guarded,locked⟩ := sound
  constructor <;> simp only [ne_eq,pids,lives] <;> assumption

theorem sound_term (s : State) (pid : ℕ) (sound : Sound shard s) : Sound shard (s.term pid) := by
  apply sound_processes shard s _ sound <;> intro c <;> split_ifs <;> rfl

theorem sound_change (s : State) (child : ℕ) (f : Process → Process) (sound : Sound shard s)
    (pids : ∀ process, (f process).pid = process.pid)
    (lives : (f (s.processes child)).life = .reaped ↔ (s.processes child).life = .reaped) : Sound shard (s.change child f) := by
  apply sound_processes shard s _ sound <;> intro c <;> by_cases same : c = child
  · rw [same,Function.update_self,pids]
  · rw [Function.update_of_ne same]
  · rw [same,Function.update_self,lives]
  · rw [Function.update_of_ne same]

theorem starts_of_brings (phase : Phase) (c : ℕ) (brings : phase.brings = some c) : phase.starts = some c := by
  cases phase <;> simp_all [Phase.brings,Phase.starts]

/-- A process that a spawn has made known is reaped. -/
theorem sound_reap (s : State) (child n : ℕ) (sound : Sound shard s) (known : s.calls n = .spawned child) :
    Sound shard (s.reap child) := by
  obtain ⟨unborn,numbers,below,brought,once,entries,guarded,locked⟩ := sound
  have apart : ∀ m, (s.calls m).brings ≠ some child := by
    intro m brings
    have same := once m n child (starts_of_brings _ _ brings) (by rw [known]; rfl)
    rw [same,known] at brings
    cases brings
  constructor <;> simp only [State.reap,State.change,Function.update_apply] <;> grind

theorem sound_look (s : State) (n : ℕ) (op : Operation) (pid : ℕ) (sound : Sound shard s)
    (moving : s.calls n = .idle ∨ s.calls n = .forcing pid) : Sound shard (look shard s n op pid) := by
  unfold look
  cases found : s.children pid with
  | none =>
    apply sound_enter shard s n _ sound <;> rcases moving with idle | forcing <;> simp_all [Phase.starts,Phase.brings,
      Phase.guards,Phase.locks]
  | some child =>
    obtain ⟨unborn,numbers,below,brought,once,entries,guarded,locked⟩ := sound
    constructor <;> simp only [State.read,State.enter,Function.update_apply] <;>
      grind [Phase.starts,Phase.brings,Phase.guards,Phase.locks]

theorem sound_lock (s : State) (n : ℕ) (op : Operation) (pid child : ℕ) (sound : Sound shard s)
    (asked : s.calls n = .asked op pid child) (free : s.mutex child = none) :
    Sound shard ((s.lock child (some n)).enter n (.holding op pid child)) := by
  obtain ⟨unborn,numbers,below,brought,once,entries,guarded,locked⟩ := sound
  constructor <;> simp only [State.lock,State.enter,Function.update_apply] <;>
    grind [Phase.starts,Phase.brings,Phase.guards,Phase.locks]

theorem sound_release (s : State) (n pid child : ℕ) (phase : Phase) (sound : Sound shard s)
    (guards : (s.calls n).guards = some (pid,child)) (locks : (s.calls n).locks = some child) (free : phase = .reaped pid ∨ phase = .signalFailed) :
    Sound shard ((release shard s n pid child).enter n phase) := by
  obtain ⟨unborn,numbers,below,brought,once,entries,guarded,locked⟩ := sound
  constructor <;> simp only [release,State.lock,State.read,State.enter,Function.update_apply] <;>
    grind [Phase.starts,Phase.brings,Phase.guards,Phase.locks]

/-- An entry changes while no call has a guard in its shard. -/
theorem sound_put (s : State) (pid : ℕ) (sound : Sound shard s) (alone : s.readers (shard pid) = []) :
    Sound shard (s.put pid none) := by
  obtain ⟨unborn,numbers,below,brought,once,entries,guarded,locked⟩ := sound
  constructor <;> simp only [State.put,Function.update_apply] <;> grind

theorem sound_insert (s : State) (n child : ℕ) (sound : Sound shard s) (inserting : s.calls n = .inserting child)
    (alone : s.readers (shard (s.processes child).pid) = []) :
    Sound shard ((s.put (s.processes child).pid (some child)).enter n (.spawned child)) := by
  obtain ⟨unborn,numbers,below,brought,once,entries,guarded,locked⟩ := sound
  constructor <;> simp only [State.put,State.enter,Function.update_apply] <;>
    grind [Phase.starts,Phase.brings,Phase.guards,Phase.locks]

theorem known_entry (s : State) (sound : Sound shard s) (pid child : ℕ) (entry : s.children pid = some child) :
    ∃ n, s.calls n = .spawned child := (sound.entries pid child entry).2

theorem sound_advance (s : State) (n : ℕ) (sound : Sound shard s) : Sound shard (advance shard s n) := by
  have moves (phase : Phase) (t : State) (kept : Sound shard t) (calls : t.calls = s.calls)
      (moving : ∀ c, s.calls n ≠ .spawned c) (starts : ∀ c, phase.starts = some c → (s.calls n).starts = some c)
      (brings : ∀ c, phase.brings = some c → (s.calls n).brings = some c)
      (guards : ∀ g, phase.guards = some g → (s.calls n).guards = some g)
      (locks : ∀ c, phase.locks = some c → (s.calls n).locks = some c) : Sound shard (t.enter n phase) := by
    apply sound_enter shard t n phase kept <;> rw [calls] <;> assumption
  have ends (pid child : ℕ) (guards : (s.calls n).guards = some (pid,child)) (locks : (s.calls n).locks = some child) :
      Sound shard ((release shard (s.reap child) n pid child).enter n (.reaped pid)) := by
    obtain ⟨m,known⟩ := known_entry shard s sound pid child (sound.guarded n pid child guards).1
    exact sound_release shard _ n pid child _ (sound_reap shard s child m sound known) guards locks (.inl rfl)
  unfold advance
  split
  case h_1 child was =>
    split <;> apply moves _ s sound rfl <;> simp [was,Phase.starts,Phase.brings,Phase.guards,Phase.locks]
  case h_2 child was =>
    split_ifs with alone
    · exact sound
    · split
      · apply moves _ s sound rfl <;> simp [was,Phase.starts,Phase.brings,Phase.guards,Phase.locks]
      · rename_i old entry
        split_ifs with still
        · apply moves _ s sound rfl <;> simp [was,Phase.starts,Phase.brings,Phase.guards,Phase.locks]
        · obtain ⟨m,known⟩ := known_entry shard s sound _ old entry
          apply moves _ _ (sound_reap shard s old m sound known) rfl <;>
            simp [was,Phase.starts,Phase.brings,Phase.guards,Phase.locks]
  case h_3 child was =>
    split_ifs with alone
    · exact sound
    · apply moves _ _ (sound_put shard s _ sound (not_not.mp alone)) rfl <;>
        simp [was,Phase.starts,Phase.brings,Phase.guards,Phase.locks]
  case h_4 child was =>
    split_ifs with alone
    · exact sound
    · exact sound_insert shard s n child sound was (not_not.mp alone)
  case h_5 op pid child was =>
    split
    · exact sound
    · rename_i free
      exact sound_lock shard s n op pid child sound was free
  case h_6 pid child was =>
    split_ifs with running
    · exact sound
    · exact ends pid child (by rw [was]; rfl) (by rw [was]; rfl)
  case h_7 pid child was =>
    split_ifs with reaped
    · exact sound_release shard s n pid child _ sound (by rw [was]; rfl) (by rw [was]; rfl) (.inr rfl)
    · apply moves _ _ (sound_change shard s child Process.struck sound (fun _ => rfl) Iff.rfl) rfl <;>
        simp [was,Phase.starts,Phase.brings,Phase.guards,Phase.locks]
  case h_8 pid child was =>
    split_ifs with reaped
    · apply moves _ s sound rfl <;> simp [was,Phase.starts,Phase.brings,Phase.guards,Phase.locks]
    · apply moves _ _ (sound_change shard s child Process.struck sound (fun _ => rfl) Iff.rfl) rfl <;>
        simp [was,Phase.starts,Phase.brings,Phase.guards,Phase.locks]
  case h_9 op pid child was =>
    split_ifs with running
    · exact sound
    · exact ends pid child (by rw [was]; rfl) (by rw [was]; rfl)
  case h_10 pid was =>
    split_ifs with alone
    · exact sound
    · split
      · apply moves _ s sound rfl <;> simp [was,Phase.starts,Phase.brings,Phase.guards,Phase.locks]
      · rename_i child entry
        split_ifs with still
        · exact sound
        · obtain ⟨m,known⟩ := known_entry shard s sound _ child entry
          apply moves _ _ (sound_reap shard s child m sound known) rfl <;>
            simp [was,Phase.starts,Phase.brings,Phase.guards,Phase.locks]
  case h_11 pid was => exact sound_look shard s n .terminate pid sound (.inr was)
  case h_12 pid was =>
    split_ifs with alone
    · exact sound
    · apply moves _ _ (sound_put shard s _ sound (not_not.mp alone)) rfl <;>
        simp [was,Phase.starts,Phase.brings,Phase.guards,Phase.locks]
  case h_13 pid was =>
    split_ifs with taken
    · apply moves _ _ (sound_term shard s pid sound) rfl <;> simp [was,Phase.starts,Phase.brings,Phase.guards,Phase.locks]
    · apply moves _ s sound rfl <;> simp [was,Phase.starts,Phase.brings,Phase.guards,Phase.locks]
  case h_14 => exact sound

theorem sound_step (s : State) (event : Event) (sound : Sound shard s) : Sound shard (step shard s event) := by
  cases event with
  | fork n pid =>
    rw [step]
    split_ifs with may
    · exact sound_fork shard s n pid sound may.1 may.2
    · exact sound
  | call n op pid =>
    rw [step]
    split_ifs with idle ends
    · apply sound_enter shard _ n _ (sound_term shard s pid sound) <;> simp_all [State.term,Phase.starts,Phase.brings,
        Phase.guards,Phase.locks]
    · exact sound_look shard s n op pid sound (.inl idle)
    · exact sound
  | advance n => exact sound_advance shard s n sound
  | signal n pid =>
    rw [step]
    split_ifs with idle
    · split <;> apply sound_enter shard s n _ sound <;> simp_all [Phase.starts,Phase.brings,Phase.guards,Phase.locks]
    · exact sound
  | expire n =>
    rw [step]
    split
    · apply sound_enter shard s n _ sound <;> simp_all [Phase.starts,Phase.brings,Phase.guards,Phase.locks]
    · exact sound
  | exit child =>
    rw [step]
    split_ifs with running
    · exact sound_change shard s child _ sound (fun _ => rfl) (by simp [running])
    · exact sound

/-- Every process a spawn has returned and nobody has reaped is in the map under its number, and no call is
about to remove the entry of that number. -/
def Kept (s : State) : Prop :=
  ∀ n c, s.calls n = .spawned c → (s.processes c).life ≠ .reaped →
    s.children (s.processes c).pid = some c ∧ ∀ m, s.calls m ≠ .reaped (s.processes c).pid

/-- No process is made known under a number whose last process has been reaped by a call that has not
removed its entry yet. -/
def Current (s : State) : Event → Prop
  | .advance n => ∀ c, s.calls n = .inserting c → s.readers (shard (s.processes c).pid) = [] →
      ∀ m, s.calls m ≠ .reaped (s.processes c).pid
  | _ => True

theorem kept_forced (s : State) (event : Event) (sound : Sound shard s) (kept : Kept (step shard s event)) :
    Current shard s event := by
  cases event with
  | advance n =>
    intro c was alone m pending
    have inserted : step shard s (.advance n) = (s.put (s.processes c).pid (some c)).enter n (.spawned c) := by
      simp only [step,advance,was]
      exact if_neg (not_not.mpr alone)
    have other : m ≠ n := by
      rintro rfl
      rw [was] at pending
      cases pending
    rw [inserted] at kept
    have live := sound.brought n c (by rw [was]; rfl)
    have none_pending := (kept n c (Function.update_self ..) live).2 m
    exact none_pending ((Function.update_of_ne other ..).trans pending)
  | _ => trivial

/-- What a step may change where every process stays known: a call gets to a phase that is neither the end of a
spawn nor before a removal, or the number of that removal is no known process's. -/
theorem kept_of (s t : State) (n : ℕ) (phase : Phase) (kept : Kept s) (calls : t.calls = Function.update s.calls n phase)
    (pids : ∀ c m, s.calls m = .spawned c → (t.processes c).pid = (s.processes c).pid)
    (lives : ∀ c m, s.calls m = .spawned c → (t.processes c).life ≠ .reaped → (s.processes c).life ≠ .reaped)
    (children : ∀ c m, s.calls m = .spawned c → (t.processes c).life ≠ .reaped →
      t.children (s.processes c).pid = s.children (s.processes c).pid)
    (spawns : ∀ c, phase ≠ .spawned c)
    (removes : ∀ c m, s.calls m = .spawned c → (t.processes c).life ≠ .reaped → phase ≠ .reaped (s.processes c).pid) :
    Kept t := by
  intro m c known live
  have before : s.calls m = .spawned c := by
    rw [calls] at known
    by_cases self : m = n
    · rw [self,Function.update_self] at known
      exact absurd known (spawns c)
    · rwa [Function.update_of_ne self] at known
  obtain ⟨entry,pending⟩ := kept m c before (lives c m before live)
  rw [pids c m before,children c m before live]
  refine ⟨entry,fun k => ?_⟩
  rw [calls]
  by_cases self : k = n
  · rw [self,Function.update_self]
    exact removes c m before live
  · rw [Function.update_of_ne self]
    exact pending k

theorem kept_enter (s : State) (n : ℕ) (phase : Phase) (kept : Kept s) (spawns : ∀ c, phase ≠ .spawned c)
    (removes : ∀ pid, phase ≠ .reaped pid) : Kept (s.enter n phase) :=
  kept_of s _ n phase kept rfl (fun _ _ _ => rfl) (fun _ _ _ live => live) (fun _ _ _ _ => rfl) spawns
    (fun _ _ _ _ => removes _)

/-- The entry's process is reaped, and its number's removal is due: no other known process has the number. -/
theorem kept_reap (s t : State) (n pid child : ℕ) (kept : Kept s)
    (entry : s.children pid = some child) (calls : t.calls = Function.update s.calls n (.reaped pid))
    (processes : t.processes = (s.reap child).processes) (children : t.children = s.children) : Kept t := by
  have others (c m : ℕ) (known : s.calls m = .spawned c) (live : (t.processes c).life ≠ .reaped) :
      (s.processes c).life ≠ .reaped ∧ (s.processes c).pid ≠ pid := by
    have apart : c ≠ child := by
      rintro rfl
      rw [processes] at live
      exact live (reap_self s c)
    rw [processes,reap_other s child c apart] at live
    refine ⟨live,?_⟩
    rintro rfl
    exact apart (Option.some_inj.mp ((kept m c known live).1.symm.trans entry))
  refine kept_of s t n (.reaped pid) kept calls (fun c m known => ?_) (fun c m known live => (others c m known live).1)
    (fun c m known live => by rw [children]) (fun c => by simp) (fun c m known live => ?_)
  · rw [processes,reap_pid]
  · intro same
    exact (others c m known live).2 (Phase.reaped.inj same).symm

theorem kept_processes (s : State) (processes : ℕ → Process) (kept : Kept s)
    (pids : ∀ c, (processes c).pid = (s.processes c).pid)
    (lives : ∀ c, (processes c).life = .reaped ↔ (s.processes c).life = .reaped) :
    Kept { s with processes := processes } := by
  intro n c known live
  have alive : (s.processes c).life ≠ .reaped := fun reaped => live ((lives c).mpr reaped)
  rw [show ({ s with processes := processes } : State).processes c = processes c from rfl,pids c]
  exact kept n c known alive

theorem kept_term (s : State) (pid : ℕ) (kept : Kept s) : Kept (s.term pid) := by
  apply kept_processes s _ kept <;> intro c <;> split_ifs <;> rfl

theorem kept_struck (s : State) (child : ℕ) (kept : Kept s) : Kept (s.change child Process.struck) := by
  apply kept_processes s _ kept <;> intro c <;> by_cases same : c = child
  · rw [same,Function.update_self]
    rfl
  · rw [Function.update_of_ne same]
  · rw [same,Function.update_self]
    rfl
  · rw [Function.update_of_ne same]

theorem kept_exit (s : State) (child : ℕ) (kept : Kept s) (running : (s.processes child).life = .running) :
    Kept (s.change child (fun process => { process with life := .exited })) := by
  apply kept_processes s _ kept <;> intro c <;> by_cases same : c = child
  · rw [same,Function.update_self]
  · rw [Function.update_of_ne same]
  · rw [same,Function.update_self,running]
    simp
  · rw [Function.update_of_ne same]

theorem kept_look (s : State) (n : ℕ) (op : Operation) (pid : ℕ) (kept : Kept s) : Kept (look shard s n op pid) := by
  unfold look
  cases s.children pid with
  | none => exact kept_enter s n _ kept (by simp) (by simp)
  | some child => exact kept_enter (s.read _ _) n _ kept (by simp) (by simp)

/-- The entry of a number is removed that no known process has. -/
theorem kept_put (s : State) (n pid : ℕ) (phase : Phase) (kept : Kept s) (spawns : ∀ c, phase ≠ .spawned c)
    (removes : ∀ pid, phase ≠ .reaped pid)
    (free : ∀ c m, s.calls m = .spawned c → (s.processes c).life ≠ .reaped → (s.processes c).pid ≠ pid) :
    Kept ((s.put pid none).enter n phase) :=
  kept_of s _ n phase kept rfl (fun _ _ _ => rfl) (fun _ _ _ live => live)
    (fun c m known live => Function.update_of_ne (free c m known live) ..) spawns (fun _ _ _ _ => removes _)

theorem kept_insert (s : State) (n child : ℕ) (sound : Sound shard s) (kept : Kept s) (was : s.calls n = .inserting child)
    (alone : s.readers (shard (s.processes child).pid) = []) (current : Current shard s (.advance n)) :
    Kept ((s.put (s.processes child).pid (some child)).enter n (.spawned child)) := by
  have live := sound.brought n child (by rw [was]; rfl)
  intro m c known alive
  by_cases self : m = n
  · have same : c = child := by
      rw [self] at known
      exact (Phase.spawned.inj ((Function.update_self ..).symm.trans known)).symm
    subst same
    refine ⟨Function.update_self ..,fun k pending => ?_⟩
    by_cases me : k = n
    · rw [me] at pending
      exact absurd ((Function.update_self ..).symm.trans pending) (by simp)
    · exact current c was alone k ((Function.update_of_ne me ..).symm.trans pending)
  · have before : s.calls m = .spawned c := (Function.update_of_ne self ..).symm.trans known
    have apart : c ≠ child := by
      rintro rfl
      exact self (sound.once m n c (by rw [before]; rfl) (by rw [was]; rfl))
    have number : (s.processes c).pid ≠ (s.processes child).pid := fun same => apart (sound.numbers c child alive live same)
    obtain ⟨entry,pending⟩ := kept m c before alive
    refine ⟨(Function.update_of_ne number ..).trans entry,fun k due => ?_⟩
    by_cases me : k = n
    · rw [me] at due
      exact absurd ((Function.update_self ..).symm.trans due) (by simp)
    · exact pending k ((Function.update_of_ne me ..).symm.trans due)

/-- A process not yet made known has no number of a known one. -/
theorem number_fresh (s : State) (n child : ℕ) (sound : Sound shard s) (brings : (s.calls n).brings = some child) (c m : ℕ)
    (known : s.calls m = .spawned c) (alive : (s.processes c).life ≠ .reaped) :
    (s.processes c).pid ≠ (s.processes child).pid := by
  intro same
  obtain rfl := sound.numbers c child alive (sound.brought n child brings) same
  have self := sound.once m n c (by rw [known]; rfl) (starts_of_brings _ _ brings)
  rw [← self,known] at brings
  cases brings

theorem kept_advance (s : State) (n : ℕ) (sound : Sound shard s) (kept : Kept s) (current : Current shard s (.advance n)) :
    Kept (advance shard s n) := by
  unfold advance
  split
  case h_1 child was => split <;> exact kept_enter s n _ kept (by simp) (by simp)
  case h_2 child was =>
    split_ifs with alone
    · exact kept
    · split
      · exact kept_enter s n _ kept (by simp) (by simp)
      · rename_i old entry
        split_ifs with still
        · exact kept_enter s n _ kept (by simp) (by simp)
        · refine kept_of s _ n _ kept rfl (fun c _ _ => reap_pid s old c) (fun c m known live => ?_) (fun _ _ _ _ => rfl)
            (by simp) (by simp)
          by_cases same : c = old
          · rw [same] at live
            exact absurd (reap_self s old) live
          · rwa [State.enter,reap_other s old c same] at live
  case h_3 child was =>
    split_ifs with alone
    · exact kept
    · exact kept_put s n _ _ kept (by simp) (by simp) (number_fresh shard s n child sound (by rw [was]; rfl))
  case h_4 child was =>
    split_ifs with alone
    · exact kept
    · exact kept_insert shard s n child sound kept was (not_not.mp alone) current
  case h_5 op pid child was =>
    split
    · exact kept
    · exact kept_enter (s.lock _ _) n _ kept (by simp) (by simp)
  case h_6 pid child was =>
    split_ifs with running
    · exact kept
    · exact kept_reap s _ n pid child kept (sound.guarded n pid child (by rw [was]; rfl)).1 rfl rfl rfl
  case h_7 pid child was =>
    split_ifs with reaped
    · exact kept_enter (release shard s n pid child) n _ kept (by simp) (by simp)
    · exact kept_enter _ n _ (kept_struck s child kept) (by simp) (by simp)
  case h_8 pid child was =>
    split_ifs with reaped
    · exact kept_enter s n _ kept (by simp) (by simp)
    · exact kept_enter _ n _ (kept_struck s child kept) (by simp) (by simp)
  case h_9 op pid child was =>
    split_ifs with running
    · exact kept
    · exact kept_reap s _ n pid child kept (sound.guarded n pid child (by rw [was]; rfl)).1 rfl rfl rfl
  case h_10 pid was =>
    split_ifs with alone
    · exact kept
    · split
      · exact kept_enter s n _ kept (by simp) (by simp)
      · rename_i child entry
        split_ifs with still
        · exact kept
        · exact kept_reap s _ n pid child kept entry rfl rfl rfl
  case h_11 pid was => exact kept_look shard s n .terminate pid kept
  case h_12 pid was =>
    split_ifs with alone
    · exact kept
    · refine kept_put s n pid _ kept (by simp) (by simp) (fun c m known alive same => ?_)
      exact (kept m c known alive).2 n (by rw [was,same])
  case h_13 pid was =>
    split_ifs with taken
    · exact kept_enter _ n _ (kept_term s pid kept) (by simp) (by simp)
    · exact kept_enter s n _ kept (by simp) (by simp)
  case h_14 => exact kept

theorem kept_fork (s : State) (n pid : ℕ) (sound : Sound shard s) (kept : Kept s) :
    Kept ((s.born pid).enter n (.forked s.count)) := by
  have old (c m : ℕ) (known : s.calls m = .spawned c) : (s.born pid).processes c = s.processes c :=
    Function.update_of_ne (Nat.ne_of_lt (sound.below m c (by rw [known]; rfl))) ..
  refine kept_of s _ n _ kept rfl (fun c m known => ?_) (fun c m known live => ?_) (fun _ _ _ _ => rfl) (by simp) (by simp)
  · exact congrArg Process.pid (old c m known)
  · rwa [State.enter,old c m known] at live

theorem kept_step (s : State) (event : Event) (sound : Sound shard s) (kept : Kept s) (current : Current shard s event) :
    Kept (step shard s event) := by
  cases event with
  | fork n pid =>
    rw [step]
    split_ifs with may
    · exact kept_fork shard s n pid sound kept
    · exact kept
  | call n op pid =>
    rw [step]
    split_ifs with idle ends
    · exact kept_enter _ n _ (kept_term s pid kept) (by simp) (by simp)
    · exact kept_look shard s n op pid kept
    · exact kept
  | advance n => exact kept_advance shard s n sound kept current
  | signal n pid =>
    rw [step]
    split_ifs with idle
    · split <;> exact kept_enter s n _ kept (by simp) (by simp)
    · exact kept
  | expire n =>
    rw [step]
    split
    · exact kept_enter s n _ kept (by simp) (by simp)
    · exact kept
  | exit child =>
    rw [step]
    split_ifs with running
    · exact kept_exit s child kept running
    · exact kept

/-- In every run the map keeps each process that a spawn has returned until it is reaped, and no removal of another
one's entry is due that would lose it, if and only if no process is made known under a number before the call that
reaped the number's last process has removed its entry. -/
theorem kept_iff (events : List Event) :
    Always (step shard) Kept new events ↔ Along (step shard) (Current shard) new events :=
  always_iff_along_forced (step shard) (Current shard) Kept Kept (Sound shard) (sound_step shard)
    (fun s event sound kept current => kept_step shard s event sound kept current) (fun _ _ kept => kept)
    (kept_forced shard) new events (sound_new shard) (fun n c known => by cases known)

/-- A call on a number that cannot go on: a `terminate` between its polls, or one that waits for the mutex. -/
def Stuck (pid child : ℕ) : Phase → Prop
  | .polling other => other = pid
  | .forcing other => other = pid
  | .asked _ other entry => other = pid ∧ entry = child
  | _ => False

/-- A `wait` has the child, which runs and has got no more than so many kills. -/
structure Shielded (n pid child kills : ℕ) (s : State) : Prop where
  sound : Sound shard s
  holding : s.calls n = .holding .wait pid child
  running : (s.processes child).life = .running
  same : (s.processes child).kills = kills

theorem Shielded.entry {n pid child kills : ℕ} {s : State} (shielded : Shielded shard n pid child kills s) :
    s.children pid = some child ∧ n ∈ s.readers (shard pid) :=
  shielded.sound.guarded n pid child (by rw [shielded.holding]; rfl)

theorem Shielded.born {n pid child kills : ℕ} {s : State} (shielded : Shielded shard n pid child kills s) :
    child < s.count := by
  obtain ⟨m,known⟩ := (shielded.sound.entries pid child shielded.entry.1).2
  exact shielded.sound.below m child (by rw [known]; rfl)

theorem Shielded.mutex {n pid child kills : ℕ} {s : State} (shielded : Shielded shard n pid child kills s) :
    s.mutex child = some n :=
  shielded.sound.locked n child (by rw [shielded.holding]; rfl)

/-- A child whose mutex another call has is another one. -/
theorem Shielded.apart {n pid child kills m c : ℕ} {s : State} (shielded : Shielded shard n pid child kills s) (other : m ≠ n)
    (locks : (s.calls m).locks = some c) : child ≠ c := by
  rintro rfl
  exact other (Option.some_inj.mp ((shielded.sound.locked m child locks).symm.trans shielded.mutex))

/-- What a step of another call leaves as it is. -/
theorem shielded_other (n pid child kills m : ℕ) (s t : State) (phase : Phase) (shielded : Shielded shard n pid child kills s)
    (sound : Sound shard t) (other : m ≠ n) (calls : t.calls = Function.update s.calls m phase)
    (life : (t.processes child).life = (s.processes child).life) (same : (t.processes child).kills = (s.processes child).kills)
    (stays : Stuck pid child (s.calls m) → Stuck pid child phase) :
    Shielded shard n pid child kills t ∧ ∀ k, Stuck pid child (s.calls k) → Stuck pid child (t.calls k) := by
  refine ⟨⟨sound,?_,life.trans shielded.running,same.trans shielded.same⟩,fun k stuck => ?_⟩
  · rw [calls,Function.update_of_ne other.symm]
    exact shielded.holding
  · rw [calls]
    by_cases self : k = m
    · rw [self,Function.update_self]
      exact stays (self ▸ stuck)
    · rw [Function.update_of_ne self]
      exact stuck

theorem look_stuck (n pid child kills m : ℕ) (op : Operation) (s : State) (shielded : Shielded shard n pid child kills s) :
    Stuck pid child ((look shard s m op pid).calls m) := by
  unfold look
  rw [shielded.entry.1]
  simp [State.enter,Stuck]

theorem look_processes (s : State) (n : ℕ) (op : Operation) (pid : ℕ) :
    (look shard s n op pid).processes = s.processes ∧ ∃ phase, (look shard s n op pid).calls = Function.update s.calls n phase := by
  unfold look
  cases s.children pid <;> exact ⟨rfl,_,rfl⟩

theorem term_same (s : State) (pid child : ℕ) :
    ((s.term pid).processes child).life = (s.processes child).life ∧
      ((s.term pid).processes child).kills = (s.processes child).kills := by
  simp only [State.term]
  split_ifs <;> exact ⟨rfl,rfl⟩

/-- The step of another call while a `wait` has the child: none gets to the mutex, and none that would remove or
replace the entry gets past the guard. -/
theorem shielded_advance (n pid child kills m : ℕ) (s t : State) (shielded : Shielded shard n pid child kills s)
    (other : m ≠ n) (made : t = advance shard s m) :
    Shielded shard n pid child kills t ∧ ∀ k, Stuck pid child (s.calls k) → Stuck pid child (t.calls k) := by
  have sound : Sound shard t := made ▸ sound_advance shard s m shielded.sound
  have moves (phase : Phase) := shielded_other shard n pid child kills m s t phase shielded sound other
  have stays (still : t = s) :
      Shielded shard n pid child kills t ∧ ∀ k, Stuck pid child (s.calls k) → Stuck pid child (t.calls k) := by
    rw [still]
    exact ⟨shielded,fun _ stuck => stuck⟩
  have unreaped (c : ℕ) (ended : (s.processes c).life ≠ .running) : (s.reap c).processes child = s.processes child :=
    reap_other s c child (fun same => ended (same ▸ shielded.running))
  have spared (c : ℕ) (apart : child ≠ c) : (s.change c Process.struck).processes child = s.processes child :=
    Function.update_of_ne apart ..
  unfold advance at made
  split at made
  case h_1 c was =>
    split at made <;> exact moves _ (by rw [made]; rfl) (by rw [made]; rfl) (by rw [made]; rfl) (by simp [was,Stuck])
  case h_2 c was =>
    split_ifs at made with alone
    · exact stays made
    · split at made
      · exact moves _ (by rw [made]; rfl) (by rw [made]; rfl) (by rw [made]; rfl) (by simp [was,Stuck])
      · rename_i old entry
        split_ifs at made with still
        · exact moves _ (by rw [made]; rfl) (by rw [made]; rfl) (by rw [made]; rfl) (by simp [was,Stuck])
        · have same := unreaped old (fun running => still (.inr running))
          exact moves _ (by rw [made]; rfl) (by rw [made,State.enter,same]) (by rw [made,State.enter,same]) (by simp [was,Stuck])
  case h_3 c was =>
    split_ifs at made with alone
    · exact stays made
    · exact moves _ (by rw [made]; rfl) (by rw [made]; rfl) (by rw [made]; rfl) (by simp [was,Stuck])
  case h_4 c was =>
    split_ifs at made with alone
    · exact stays made
    · exact moves _ (by rw [made]; rfl) (by rw [made]; rfl) (by rw [made]; rfl) (by simp [was,Stuck])
  case h_5 op number c was =>
    split at made
    · exact stays made
    · rename_i free
      refine moves _ (by rw [made]; rfl) (by rw [made]; rfl) (by rw [made]; rfl) (fun stuck => ?_)
      rw [was] at stuck
      rw [stuck.2,shielded.mutex] at free
      cases free
  case h_6 number c was =>
    split_ifs at made with running
    · exact stays made
    · have same := unreaped c running
      exact moves _ (by rw [made]; rfl) (by rw [made]; exact congrArg Process.life same)
        (by rw [made]; exact congrArg Process.kills same) (by simp [was,Stuck])
  case h_7 number c was =>
    split_ifs at made with reaped
    · exact moves _ (by rw [made]; rfl) (by rw [made]; rfl) (by rw [made]; rfl) (by simp [was,Stuck])
    · have same := spared c (shielded.apart shard other (by rw [was]; rfl))
      exact moves _ (by rw [made]; rfl) (by rw [made,State.enter,same]) (by rw [made,State.enter,same]) (by simp [was,Stuck])
  case h_8 number c was =>
    split_ifs at made with reaped
    · exact moves _ (by rw [made]; rfl) (by rw [made]; rfl) (by rw [made]; rfl) (by simp [was,Stuck])
    · have same := spared c (shielded.apart shard other (by rw [was]; rfl))
      exact moves _ (by rw [made]; rfl) (by rw [made,State.enter,same]) (by rw [made,State.enter,same]) (by simp [was,Stuck])
  case h_9 op number c was =>
    split_ifs at made with running
    · exact stays made
    · have same := unreaped c running
      exact moves _ (by rw [made]; rfl) (by rw [made]; exact congrArg Process.life same)
        (by rw [made]; exact congrArg Process.kills same) (by simp [was,Stuck])
  case h_10 number was =>
    have held (stuck : Stuck pid child (s.calls m)) : s.readers (shard number) ≠ [] := by
      rw [was] at stuck
      subst stuck
      exact List.ne_nil_of_mem shielded.entry.2
    split_ifs at made with alone
    · exact stays made
    · split at made
      · exact moves _ (by rw [made]; rfl) (by rw [made]; rfl) (by rw [made]; rfl) (fun stuck => absurd (held stuck) alone)
      · rename_i c entry
        split_ifs at made with still
        · exact stays made
        · have same := unreaped c (fun running => still (.inr running))
          exact moves _ (by rw [made]; rfl) (by rw [made,State.enter,same]) (by rw [made,State.enter,same])
            (fun stuck => absurd (held stuck) alone)
  case h_11 number was =>
    obtain ⟨processes,phase,calls⟩ := look_processes shard s m .terminate number
    refine moves phase (made ▸ calls) (by rw [made,processes]) (by rw [made,processes]) (fun stuck => ?_)
    rw [was] at stuck
    subst stuck
    have asked := look_stuck shard n number child kills m .terminate s shielded
    rwa [calls,Function.update_self] at asked
  case h_12 number was =>
    split_ifs at made with alone
    · exact stays made
    · exact moves _ (by rw [made]; rfl) (by rw [made]; rfl) (by rw [made]; rfl) (by simp [was,Stuck])
  case h_13 number was =>
    split_ifs at made with taken
    · obtain ⟨life,same⟩ := term_same s number child
      exact moves _ (by rw [made]; rfl) (made ▸ life) (made ▸ same) (by simp [was,Stuck])
    · exact moves _ (by rw [made]; rfl) (by rw [made]; rfl) (by rw [made]; rfl) (by simp [was,Stuck])
  case h_14 => exact stays made

theorem shielded_step (n pid child kills : ℕ) (s : State) (event : Event) (shielded : Shielded shard n pid child kills s)
    (lasts : event ≠ .exit child) :
    Shielded shard n pid child kills (step shard s event) ∧
      ∀ k, Stuck pid child (s.calls k) → Stuck pid child ((step shard s event).calls k) := by
  have sound := sound_step shard s event shielded.sound
  have moves (m : ℕ) (phase : Phase) (idle : s.calls m = .idle) (calls : (step shard s event).calls = Function.update s.calls m phase)
      (life : ((step shard s event).processes child).life = (s.processes child).life)
      (same : ((step shard s event).processes child).kills = (s.processes child).kills) :=
    shielded_other shard n pid child kills m s _ phase shielded sound
      (by rintro rfl; rw [shielded.holding] at idle; cases idle) calls life same (by simp [idle,Stuck])
  have stays : Shielded shard n pid child kills s ∧ ∀ k, Stuck pid child (s.calls k) → Stuck pid child (s.calls k) :=
    ⟨shielded,fun _ stuck => stuck⟩
  cases event with
  | fork m number =>
    have old : (s.born number).processes child = s.processes child :=
      Function.update_of_ne (Nat.ne_of_lt (shielded.born shard)) ..
    rw [step] at moves ⊢
    split_ifs at moves ⊢ with may
    · exact moves m _ may.1 rfl (congrArg Process.life old) (congrArg Process.kills old)
    · exact stays
  | call m op number =>
    rw [step] at moves ⊢
    split_ifs at moves ⊢ with idle ends
    · obtain ⟨life,same⟩ := term_same s number child
      exact moves m _ idle rfl life same
    · obtain ⟨processes,phase,calls⟩ := look_processes shard s m op number
      exact moves m phase idle calls (by rw [processes]) (by rw [processes])
    · exact stays
  | advance m =>
    by_cases self : m = n
    · have still : step shard s (.advance m) = s := by simp [step,advance,self,shielded.holding,shielded.running]
      rw [still]
      exact stays
    · exact shielded_advance shard n pid child kills m s _ shielded self rfl
  | signal m number =>
    rw [step] at moves ⊢
    split_ifs at moves ⊢ with idle
    · split at moves <;> exact moves m _ idle rfl rfl rfl
    · exact stays
  | expire m =>
    by_cases polls : ∃ number, s.calls m = .polling number
    · obtain ⟨number,was⟩ := polls
      have forced : step shard s (.expire m) = s.enter m (.forcing number) := by simp [step,was]
      rw [forced] at sound ⊢
      refine shielded_other shard n pid child kills m s _ _ shielded sound ?_ rfl rfl rfl (fun stuck => by rwa [was] at stuck)
      rintro rfl
      rw [shielded.holding] at was
      cases was
    · have still : step shard s (.expire m) = s := by
        rw [step]
        split
        · rename_i number was
          exact absurd ⟨number,was⟩ polls
        · rfl
      rw [still]
      exact stays
  | exit c =>
    have apart : child ≠ c := fun same => lasts (same ▸ rfl)
    rw [step] at sound ⊢
    split_ifs at sound ⊢ with running
    · have same : (s.change c (fun process => { process with life := .exited })).processes child = s.processes child :=
        Function.update_of_ne apart ..
      exact ⟨⟨sound,shielded.holding,by rw [same]; exact shielded.running,by rw [same]; exact shielded.same⟩,fun _ stuck => stuck⟩
    · exact stays

/-- While a `wait` has a child and no other cause ends it, no SIGKILL reaches the child, and each `wait`, `kill` and
`terminate` of its number waits and goes on waiting: a `terminate` past its grace period too. -/
theorem wait_shields (before later : List Event) (n pid child : ℕ)
    (holding : (run (step shard) new before).calls n = .holding .wait pid child)
    (running : ((run (step shard) new before).processes child).life = .running) (lasts : Event.exit child ∉ later) :
    let s := run (step shard) new before
    let t := run (step shard) s later
    t.calls n = .holding .wait pid child ∧ (t.processes child).life = .running ∧
      (t.processes child).kills = (s.processes child).kills ∧
      (∀ k, Stuck pid child (s.calls k) → Stuck pid child (t.calls k)) ∧
      ∀ k op, t.calls k = .idle → Stuck pid child ((step shard t (.call k op pid)).calls k) := by
  intro s t
  have sound : Sound shard s := run_always (step shard) _ (sound_step shard) new before (sound_new shard)
  obtain ⟨shielded,stuck⟩ := run_invariant (step shard) (fun _ event => event ≠ .exit child)
    (fun t => Shielded shard n pid child (s.processes child).kills t ∧ ∀ k, Stuck pid child (s.calls k) → Stuck pid child (t.calls k))
    (fun t event ⟨shielded,stuck⟩ lasts =>
      have ⟨still,stays⟩ := shielded_step shard n pid child _ t event shielded lasts
      ⟨still,fun k was => stays k (stuck k was)⟩)
    s later ⟨⟨sound,holding,running,rfl⟩,fun _ stuck => stuck⟩
    (along_inputs (step shard) _ s later (fun event member same => lasts (same ▸ member)))
  refine ⟨shielded.holding,shielded.running,shielded.same,stuck,fun k op idle => ?_⟩
  rw [step,if_pos idle]
  split_ifs with ends
  · simp [State.enter,Stuck]
  · exact look_stuck shard n pid child _ k op t shielded

end Steps

theorem wait_shields_run :
    let s := run (step id) new [.fork 0 7,.advance 0,.advance 0,.call 1 .wait 7,.advance 1,.call 2 .kill 7,.call 3 .terminate 7]
    let t := run (step id) s [.advance 2,.expire 3,.advance 3,.advance 1,.advance 3]
    t.calls 1 = .holding .wait 7 0 ∧ (t.processes 0).life = .running ∧ (t.processes 0).kills = (s.processes 0).kills ∧
      (∀ k, Stuck 7 0 (s.calls k) → Stuck 7 0 (t.calls k)) ∧
      ∀ k op, t.calls k = .idle → Stuck 7 0 ((step id t (.call k op 7)).calls k) :=
  wait_shields id _ _ 1 7 0 (by decide) (by decide) (by decide)

end ClawKernel.Pal.ProcessManager
