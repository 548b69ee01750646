import ClawKernel.Lib.Runs
import ClawKernel.Loop.Types
import ClawKernel.Server.Outbound
import Mathlib.Data.List.Basic

/-! The runs of one session. `sendMessage` and `agent.steer` spawn the same two tasks: one
takes the agent loop's lock, runs the loop and pushes `agent/finish`; the other forwards
the run's text chunks from a channel of its own to the session's notify channel.
-/
namespace ClawKernel.Server.Streams
open Lib.Runs Loop.Types Server.Connection

def chunkCapacity : Nat := 256

structure Delta where
  content : String
  isFinal : Bool
  deriving DecidableEq, Repr

/-- What the forwarding task makes of a chunk. -/
def forwardable : StreamChunk → Option Delta
  | .text content isFinal => if content ≠ "" ∨ isFinal = true then some ⟨content,isFinal⟩ else none
  | _ => none

/-- The outcome of `run_streaming`: the answer with its finish reason, or the error's text. -/
inductive Outcome where
  | ok (content : String) (reason : FinishReason)
  | error (message : String)
  deriving DecidableEq, Repr

structure Finish where
  content : Option String
  reason : String
  deriving DecidableEq, Repr

def reasonText : FinishReason → String
  | .stop => "stop"
  | .maxTurns => "max_turns"
  | .tokenBudget => "token_budget"
  | .noToolCall => "no_tool_call"
  | .stopCondition => "stop_condition"
  | .error => "error"

def Outcome.finish : Outcome → Finish
  | .ok content reason => ⟨some content,reasonText reason⟩
  | .error message => ⟨none,"error: " ++ message⟩

inductive Phase where
  | absent
  | waiting
  | running
  | finishing (finish : Finish)
  | done
  deriving DecidableEq, Repr

/-- One run: its task, its chunk channel and the chunk its forwarder holds. `produced`
are the deltas that the run has sent so far and that are to be forwarded. -/
structure Run where
  phase : Phase
  channel : List StreamChunk
  inHand : Option Delta
  produced : List Delta

inductive Entry where
  | chunk (run : Nat) (delta : Delta)
  | finish (run : Nat) (finish : Finish)
  deriving DecidableEq, Repr

def Entry.push (sessionId : String) : Entry → Outbound.Push
  | .chunk _ delta => .notifyChunk sessionId delta.content delta.isFinal
  | .finish _ ended => .notifyFinish sessionId ended.content ended.reason

/-- The session: `entered` is what its runs have put into the notify channel, of which
`queued` slots are taken; `turns` are the runs in the order in which they got the lock. -/
structure Session where
  runs : Nat → Run
  lock : Option Nat
  turns : List Nat
  queued : Nat
  closed : Bool
  entered : List Entry

inductive Step where
  | spawn (run : Nat)
  | acquire (run : Nat)
  | emit (run : Nat) (chunk : StreamChunk)
  | returns (run : Nat) (outcome : Outcome)
  | take (run : Nat)
  | forward (run : Nat)
  | finish (run : Nat)
  | recv
  | other
  | close

def start : Session where
  runs := fun _ => ⟨.absent,[],none,[]⟩
  lock := none
  turns := []
  queued := 0
  closed := false
  entered := []

def Session.set (s : Session) (k : Nat) (run : Run) : Session :=
  { s with runs := Function.update s.runs k run }

/-- `session.notify`, once there is a slot; its error is ignored. -/
def Session.notify (s : Session) (entry : Entry) : Session :=
  if s.closed then s else { s with entered := s.entered ++ [entry], queued := s.queued + 1 }

def Session.room (s : Session) : Bool := s.closed || decide (s.queued < notifyCapacity)

def step (s : Session) : Step → Session
  | .spawn k =>
    match (s.runs k).phase with
    | .absent => s.set k { s.runs k with phase := .waiting }
    | _ => s
  | .acquire k =>
    match (s.runs k).phase, s.lock with
    | .waiting, none => { s.set k { s.runs k with phase := .running } with lock := some k, turns := s.turns ++ [k] }
    | _, _ => s
  | .emit k chunk =>
    match (s.runs k).phase with
    | .running =>
      if (s.runs k).channel.length < chunkCapacity then
        s.set k { s.runs k with
          channel := (s.runs k).channel ++ [chunk]
          produced := (s.runs k).produced ++ (forwardable chunk).toList }
      else s
    | _ => s
  | .returns k outcome =>
    match (s.runs k).phase with
    | .running => s.set k { s.runs k with phase := .finishing outcome.finish }
    | _ => s
  | .take k =>
    match (s.runs k).inHand, (s.runs k).channel with
    | none, chunk :: rest => s.set k { s.runs k with channel := rest, inHand := forwardable chunk }
    | _, _ => s
  | .forward k =>
    match (s.runs k).inHand with
    | some delta => if s.room then (s.set k { s.runs k with inHand := none }).notify (.chunk k delta) else s
    | none => s
  | .finish k =>
    match (s.runs k).phase with
    | .finishing finish =>
      -- the guard of the agent loop is dropped after the notification
      if s.room then { (s.set k { s.runs k with phase := .done }).notify (.finish k finish) with lock := none } else s
    | _ => s
  | .recv => { s with queued := s.queued - 1 }
  | .other => if s.queued < notifyCapacity then { s with queued := s.queued + 1 } else s
  | .close => { s with closed := true }

def chunksOf (k : Nat) (entered : List Entry) : List Delta :=
  entered.filterMap (fun entry =>
    match entry with
    | .chunk run delta => if run = k then some delta else none
    | .finish _ _ => none)

/-- The runs whose chunks entered, chunk by chunk. -/
def chunkRuns (entered : List Entry) : List Nat :=
  entered.filterMap (fun entry =>
    match entry with
    | .chunk run _ => some run
    | .finish _ _ => none)

/-- A run's chunks enter in the order produced, all of them before its finish and none
after it, and between two chunks of one run there is none of another. -/
structure Streamed (s : Session) : Prop where
  ordered : ∀ k, chunksOf k s.entered <+: (s.runs k).produced
  closes : ∀ k finish before after, s.entered = before ++ .finish k finish :: after →
    chunksOf k before = (s.runs k).produced ∧ chunksOf k after = []
  apart : ∀ i j, i ≠ j → ¬List.Sublist [i,j,i] (chunkRuns s.entered)

/-- What a run's forwarder has still to forward. -/
def left (run : Run) : List Delta := run.inHand.toList ++ run.channel.filterMap forwardable

/-- A finish enters only when the run's forwarder has nothing left. -/
def Drained (s : Session) : Step → Prop
  | .finish k =>
    s.closed = false → s.room = true → (∃ finish, (s.runs k).phase = .finishing finish) → left (s.runs k) = []
  | _ => True

def Run.active (run : Run) : Prop := run.phase = .running ∨ ∃ finish, run.phase = .finishing finish

/-- The lock and the turns, against the phases of the runs and the finishes that entered. -/
structure Turns (s : Session) : Prop where
  unstarted : ∀ k, (s.runs k).phase = .absent ∨ (s.runs k).phase = .waiting → k ∉ s.turns
  holder : ∀ k, (s.runs k).active → s.lock = some k ∧ s.turns.getLast? = some k
  finished : s.closed = false → ∀ k, (s.runs k).phase = .done → ∃ finish, Entry.finish k finish ∈ s.entered
  ended : ∀ k finish, Entry.finish k finish ∈ s.entered → (s.runs k).phase = .done
  distinct : s.turns.Nodup

/-- What every run has produced: its chunks that entered, then those its forwarder has left. -/
structure Accounts (s : Session) : Prop where
  account : s.closed = false → ∀ k, chunksOf k s.entered ++ left (s.runs k) = (s.runs k).produced
  ordered : ∀ k, chunksOf k s.entered <+: (s.runs k).produced
  started : ∀ k, (s.runs k).produced ≠ [] → k ∈ s.turns
  entrants : ∀ k ∈ chunkRuns s.entered, k ∈ s.turns

@[simp] theorem set_runs (s : Session) (k j : Nat) (run : Run) :
    (s.set k run).runs j = if j = k then run else s.runs j :=
  Function.update_apply _ _ _ _

/-- What a step of one run leaves of it, it leaves of every run. -/
theorem set_same {α : Type} (s : Session) (k : Nat) (run : Run) (data : Run → α) (same : data run = data (s.runs k))
    (j : Nat) : data ((s.set k run).runs j) = data (s.runs j) := by
  rw [set_runs]
  split_ifs with here
  · rw [same,here]
  · rfl

@[simp] theorem set_closed (s : Session) (k : Nat) (run : Run) : (s.set k run).closed = s.closed := rfl

@[simp] theorem set_entered (s : Session) (k : Nat) (run : Run) : (s.set k run).entered = s.entered := rfl

@[simp] theorem set_turns (s : Session) (k : Nat) (run : Run) : (s.set k run).turns = s.turns := rfl

section Notify
variable (s : Session) (entry : Entry)

@[simp] theorem notify_runs : (s.notify entry).runs = s.runs := by
  unfold Session.notify
  split_ifs
  · rfl
  · rfl

@[simp] theorem notify_turns : (s.notify entry).turns = s.turns := by
  unfold Session.notify
  split_ifs
  · rfl
  · rfl

@[simp] theorem notify_lock : (s.notify entry).lock = s.lock := by
  unfold Session.notify
  split_ifs
  · rfl
  · rfl

@[simp] theorem notify_closed : (s.notify entry).closed = s.closed := by
  unfold Session.notify
  split_ifs
  · rfl
  · rfl

@[simp] theorem notify_entered :
    (s.notify entry).entered = if s.closed = true then s.entered else s.entered ++ [entry] := by
  unfold Session.notify
  split_ifs
  · rfl
  · rfl

end Notify

theorem chunksOf_chunk (k j : Nat) (delta : Delta) (entered : List Entry) :
    chunksOf k (entered ++ [.chunk j delta]) = chunksOf k entered ++ if j = k then [delta] else [] := by
  simp only [chunksOf,List.filterMap_append,List.filterMap_cons,List.filterMap_nil]
  split_ifs
  · rfl
  · rfl

theorem chunksOf_finish (k j : Nat) (finish : Finish) (entered : List Entry) :
    chunksOf k (entered ++ [.finish j finish]) = chunksOf k entered := by
  simp only [chunksOf,List.filterMap_append,List.filterMap_cons,List.filterMap_nil,List.append_nil]

theorem chunkRuns_chunk (j : Nat) (delta : Delta) (entered : List Entry) :
    chunkRuns (entered ++ [.chunk j delta]) = chunkRuns entered ++ [j] := by
  simp only [chunkRuns,List.filterMap_append,List.filterMap_cons,List.filterMap_nil]

theorem chunkRuns_finish (j : Nat) (finish : Finish) (entered : List Entry) :
    chunkRuns (entered ++ [.finish j finish]) = chunkRuns entered := by
  simp only [chunkRuns,List.filterMap_append,List.filterMap_cons,List.filterMap_nil,List.append_nil]

theorem finish_mem_chunk (k j : Nat) (finish : Finish) (delta : Delta) (entered : List Entry) :
    Entry.finish k finish ∈ entered ++ [.chunk j delta] ↔ Entry.finish k finish ∈ entered := by
  simp only [List.mem_append,List.mem_singleton,reduceCtorEq,or_false]

theorem finish_mem_finish (k j : Nat) (finish last : Finish) (entered : List Entry) :
    Entry.finish k finish ∈ entered ++ [.finish j last] ↔
      Entry.finish k finish ∈ entered ∨ (k = j ∧ finish = last) := by
  simp only [List.mem_append,List.mem_singleton,Entry.finish.injEq]

/-- A step that changes no phase and lets no finish in. -/
theorem turns_same (s s' : Session) (turns : Turns s) (phases : ∀ k, (s'.runs k).phase = (s.runs k).phase)
    (lock : s'.lock = s.lock) (order : s'.turns = s.turns) (closed : s'.closed = false → s.closed = false)
    (finishes : ∀ k finish, Entry.finish k finish ∈ s'.entered ↔ Entry.finish k finish ∈ s.entered) : Turns s' := by
  have active : ∀ k, (s'.runs k).active → (s.runs k).active := by
    intro k now
    unfold Run.active at now ⊢
    rw [phases k] at now
    exact now
  refine ⟨?_,?_,?_,?_,?_⟩
  · intro k early
    rw [phases k] at early
    rw [order]
    exact turns.unstarted k early
  · intro k now
    rw [lock,order]
    exact turns.holder k (active k now)
  · intro opened k past
    rw [phases k] at past
    obtain ⟨finish,member⟩ := turns.finished (closed opened) k past
    exact ⟨finish,(finishes k finish).mpr member⟩
  · intro k finish member
    rw [phases k]
    exact turns.ended k finish ((finishes k finish).mp member)
  · rw [order]
    exact turns.distinct

/-- A step of one run's task to another phase, with no finish. -/
theorem turns_set (s : Session) (k : Nat) (run : Run) (turns : Turns s)
    (unstarted : run.phase = .absent ∨ run.phase = .waiting → k ∉ s.turns)
    (holder : run.active → s.lock = some k ∧ s.turns.getLast? = some k)
    (before : (s.runs k).phase ≠ .done) (after : run.phase ≠ .done) : Turns (s.set k run) := by
  refine ⟨?_,?_,?_,?_,turns.distinct⟩
  · intro j
    rw [set_runs]
    split_ifs with same
    · rw [same]
      exact unstarted
    · exact turns.unstarted j
  · intro j
    rw [set_runs]
    split_ifs with same
    · rw [same]
      exact holder
    · exact turns.holder j
  · intro opened j
    rw [set_runs]
    split_ifs with same
    · exact fun past => absurd past after
    · exact turns.finished opened j
  · intro j finish member
    have past := turns.ended j finish member
    rw [set_runs]
    split_ifs with same
    · rw [same] at past
      exact absurd past before
    · exact past

theorem acquire_turns (s : Session) (k : Nat) (turns : Turns s) (waiting : (s.runs k).phase = .waiting)
    (free : s.lock = none) :
    Turns { s.set k { s.runs k with phase := .running } with lock := some k, turns := s.turns ++ [k] } := by
  have idle : ∀ j, ¬(s.runs j).active := by
    intro j active
    have held := (turns.holder j active).1
    rw [free] at held
    cases held
  refine ⟨?_,?_,?_,?_,?_⟩
  · intro j early
    simp only [set_runs] at early
    split_ifs at early with same
    · cases early with
      | inl absent => cases absent
      | inr waits => cases waits
    · intro member
      cases List.mem_append.mp member with
      | inl older => exact turns.unstarted j early older
      | inr newest => exact same (List.mem_singleton.mp newest)
  · intro j active
    simp only [set_runs] at active
    split_ifs at active with same
    · rw [same]
      exact ⟨rfl,List.getLast?_concat⟩
    · exact absurd active (idle j)
  · intro opened j past
    simp only [set_runs] at past
    split_ifs at past with same
    · exact turns.finished opened j past
  · intro j finish member
    have past := turns.ended j finish member
    simp only [set_runs]
    split_ifs with same
    · rw [same,waiting] at past
      cases past
    · exact past
  · apply List.nodup_append.mpr
    refine ⟨turns.distinct,List.pairwise_singleton _ k,?_⟩
    intro a member b newest equal
    rw [equal,List.mem_singleton.mp newest] at member
    exact turns.unstarted k (Or.inr waiting) member

theorem finish_turns (s : Session) (k : Nat) (finish : Finish) (turns : Turns s)
    (finishing : (s.runs k).phase = .finishing finish) :
    Turns { (s.set k { s.runs k with phase := .done }).notify (.finish k finish) with lock := none } := by
  have last := turns.holder k (Or.inr ⟨finish,finishing⟩)
  have idle : ∀ j, j ≠ k → ¬(s.runs j).active := by
    intro j other active
    have held := (turns.holder j active).1
    rw [last.1] at held
    exact other (Option.some.inj held).symm
  refine ⟨?_,?_,?_,?_,?_⟩
  · intro j early
    simp only [notify_runs,notify_turns,set_runs,set_turns] at early ⊢
    split_ifs at early with same
    · cases early with
      | inl absent => cases absent
      | inr waits => cases waits
    · exact turns.unstarted j early
  · intro j active
    simp only [notify_runs,set_runs] at active
    split_ifs at active with same
    · cases active with
      | inl running => cases running
      | inr ends =>
        obtain ⟨_,finishes⟩ := ends
        cases finishes
    · exact absurd active (idle j same)
  · intro opened j past
    simp only [notify_closed,set_closed] at opened
    simp only [notify_runs,notify_entered,set_runs,set_closed,set_entered,opened,Bool.false_eq_true,if_false] at past ⊢
    split_ifs at past with same
    · exact ⟨finish,(finish_mem_finish j k finish finish _).mpr (Or.inr ⟨same,rfl⟩)⟩
    · obtain ⟨earlier,member⟩ := turns.finished opened j past
      exact ⟨earlier,(finish_mem_finish j k earlier finish _).mpr (Or.inl member)⟩
  · intro j earlier member
    simp only [notify_runs,set_runs]
    dsimp only at member
    rw [notify_entered,set_closed,set_entered] at member
    split_ifs with same
    · rfl
    · split_ifs at member
      · exact turns.ended j earlier member
      · cases (finish_mem_finish j k earlier finish _).mp member with
        | inl older => exact turns.ended j earlier older
        | inr newest => exact absurd newest.1 same
  · simp only [notify_turns,set_turns]
    exact turns.distinct

/-- A step that changes nothing a run has produced, forwarded or left. -/
theorem accounts_same (s s' : Session) (accounts : Accounts s)
    (data : ∀ k, left (s'.runs k) = left (s.runs k) ∧ (s'.runs k).produced = (s.runs k).produced)
    (closed : s'.closed = false → s.closed = false) (chunks : ∀ k, chunksOf k s'.entered = chunksOf k s.entered)
    (runs : chunkRuns s'.entered = chunkRuns s.entered) (order : ∀ k ∈ s.turns, k ∈ s'.turns) : Accounts s' := by
  refine ⟨?_,?_,?_,?_⟩
  · intro opened k
    rw [(data k).1,(data k).2,chunks k]
    exact accounts.account (closed opened) k
  · intro k
    rw [(data k).2,chunks k]
    exact accounts.ordered k
  · intro k some
    rw [(data k).2] at some
    exact order k (accounts.started k some)
  · intro k member
    rw [runs] at member
    exact order k (accounts.entrants k member)

theorem accounts_set (s : Session) (k : Nat) (run : Run) (accounts : Accounts s)
    (account : s.closed = false → chunksOf k s.entered ++ left run = run.produced)
    (ordered : chunksOf k s.entered <+: run.produced) (started : run.produced ≠ [] → k ∈ s.turns) :
    Accounts (s.set k run) := by
  refine ⟨?_,?_,?_,accounts.entrants⟩
  · intro opened j
    rw [set_runs]
    split_ifs with same
    · rw [same]
      exact account opened
    · exact accounts.account opened j
  · intro j
    rw [set_runs]
    split_ifs with same
    · rw [same]
      exact ordered
    · exact accounts.ordered j
  · intro j
    rw [set_runs]
    split_ifs with same
    · rw [same]
      exact started
    · exact accounts.started j

theorem emit_accounts (s : Session) (k : Nat) (chunk : StreamChunk) (turns : Turns s) (accounts : Accounts s)
    (running : (s.runs k).phase = .running) :
    Accounts (s.set k { s.runs k with
      channel := (s.runs k).channel ++ [chunk]
      produced := (s.runs k).produced ++ (forwardable chunk).toList }) := by
  have grown : left { s.runs k with
      channel := (s.runs k).channel ++ [chunk]
      produced := (s.runs k).produced ++ (forwardable chunk).toList } =
        left (s.runs k) ++ (forwardable chunk).toList := by
    simp only [left,List.filterMap_append,List.append_assoc,List.filterMap_cons,List.filterMap_nil]
    cases forwardable chunk with
    | none => rfl
    | some delta => rfl
  apply accounts_set s k _ accounts
  · intro opened
    rw [grown,← List.append_assoc,accounts.account opened k]
  · exact (accounts.ordered k).trans (List.prefix_append _ _)
  · intro _
    exact List.mem_of_getLast? (turns.holder k (Or.inl running)).2

theorem take_accounts (s : Session) (k : Nat) (chunk : StreamChunk) (rest : List StreamChunk) (accounts : Accounts s)
    (idle : (s.runs k).inHand = none) (first : (s.runs k).channel = chunk :: rest) :
    Accounts (s.set k { s.runs k with channel := rest, inHand := forwardable chunk }) := by
  have same : left { s.runs k with channel := rest, inHand := forwardable chunk } = left (s.runs k) := by
    simp only [left,idle,first,List.filterMap_cons,Option.toList_none,List.nil_append]
    cases forwardable chunk with
    | none => rfl
    | some delta => rfl
  apply accounts_set s k _ accounts
  · intro opened
    rw [same]
    exact accounts.account opened k
  · exact accounts.ordered k
  · exact accounts.started k

theorem left_inHand (run : Run) (delta : Delta) (held : run.inHand = some delta) :
    left run = delta :: left { run with inHand := none } := by
  simp only [left,held,Option.toList_some,Option.toList_none,List.singleton_append,List.nil_append]

theorem forward_accounts (s : Session) (k : Nat) (delta : Delta) (accounts : Accounts s)
    (held : (s.runs k).inHand = some delta) :
    Accounts ((s.set k { s.runs k with inHand := none }).notify (.chunk k delta)) := by
  unfold Session.notify
  split_ifs with closed
  · apply accounts_set s k _ accounts
    · intro opened
      exact absurd (opened.symm.trans closed) Bool.false_ne_true
    · exact accounts.ordered k
    · exact accounts.started k
  · have opened : s.closed = false := by simpa [Session.set] using closed
    have account := accounts.account opened k
    rw [left_inHand _ _ held] at account
    have there : k ∈ s.turns := by
      apply accounts.started k
      rw [← account]
      exact List.append_ne_nil_of_right_ne_nil _ (List.cons_ne_nil _ _)
    have taken : ∀ j, chunksOf j (s.entered ++ [.chunk k delta]) ++
        left ((s.set k { s.runs k with inHand := none }).runs j) = (s.runs j).produced := by
      intro j
      rw [chunksOf_chunk,set_runs]
      by_cases same : j = k
      · subst same
        rw [if_pos rfl,if_pos rfl,List.append_assoc,List.singleton_append]
        exact account
      · rw [if_neg (Ne.symm same),if_neg same,List.append_nil]
        exact accounts.account opened j
    have produced := set_same s k { s.runs k with inHand := none } Run.produced rfl
    refine ⟨?_,?_,?_,?_⟩
    · intro _ j
      exact (taken j).trans (produced j).symm
    · intro j
      exact ⟨_,(taken j).trans (produced j).symm⟩
    · intro j some
      apply accounts.started j
      rw [← produced j]
      exact some
    · intro j member
      have member : j ∈ chunkRuns s.entered ++ [k] := chunkRuns_chunk k delta s.entered ▸ member
      cases List.mem_append.mp member with
      | inl older => exact accounts.entrants j older
      | inr newest =>
        rw [List.mem_singleton.mp newest]
        exact there

theorem forward_turns (s : Session) (k : Nat) (delta : Delta) (turns : Turns s) :
    Turns ((s.set k { s.runs k with inHand := none }).notify (.chunk k delta)) := by
  apply turns_same s _ turns
  · intro j
    rw [notify_runs]
    apply set_same s k _ Run.phase
    rfl
  · rw [notify_lock]
    rfl
  · rw [notify_turns]
    rfl
  · intro opened
    rw [notify_closed] at opened
    exact opened
  · intro j finish
    rw [notify_entered,set_closed,set_entered]
    split_ifs
    · exact Iff.rfl
    · exact finish_mem_chunk j k finish delta s.entered

/-- A step of one run's task to another phase is none of its forwarder. -/
theorem phase_accounts (s : Session) (k : Nat) (phase : Phase) (accounts : Accounts s) :
    Accounts (s.set k { s.runs k with phase := phase }) :=
  accounts_set s k _ accounts (fun opened => accounts.account opened k) (accounts.ordered k) (accounts.started k)

theorem finish_accounts (s : Session) (k : Nat) (finish : Finish) (accounts : Accounts s) :
    Accounts { (s.set k { s.runs k with phase := .done }).notify (.finish k finish) with lock := none } := by
  apply accounts_same _ _ (phase_accounts s k .done accounts)
  · intro j
    dsimp only
    rw [notify_runs]
    exact ⟨rfl,rfl⟩
  · intro opened
    simp only [notify_closed] at opened
    exact opened
  · intro j
    dsimp only
    rw [notify_entered]
    split_ifs
    · rfl
    · exact chunksOf_finish j k finish s.entered
  · dsimp only
    rw [notify_entered]
    split_ifs
    · rfl
    · exact chunkRuns_finish k finish s.entered
  · intro j member
    simp only [notify_turns]
    exact member

structure Inv (s : Session) : Prop where
  turns : Turns s
  accounts : Accounts s

/-- What the lock gives while every finish finds its forwarder drained: the runs' chunks
follow each other in the order of the turns. -/
structure Strong (s : Session) : Prop where
  closes : ∀ k finish before after, s.entered = before ++ .finish k finish :: after →
    chunksOf k before = (s.runs k).produced ∧ chunksOf k after = []
  ranked : (chunkRuns s.entered).Pairwise (fun a b => s.turns.idxOf a ≤ s.turns.idxOf b)

/-- A step that touches no run and lets nothing in. -/
theorem queue_inv (s s' : Session) (inv : Inv s) (runs : s'.runs = s.runs) (lock : s'.lock = s.lock)
    (order : s'.turns = s.turns) (entered : s'.entered = s.entered) (closed : s'.closed = false → s.closed = false) :
    Inv s' := by
  constructor
  · apply turns_same s s' inv.turns (fun k => by rw [runs]) lock order closed
    intro k finish
    rw [entered]
  · apply accounts_same s s' inv.accounts (fun k => by rw [runs]; exact ⟨rfl,rfl⟩) closed
    · intro k
      rw [entered]
    · rw [entered]
    · intro k member
      rw [order]
      exact member

theorem step_inv (s : Session) (i : Step) (inv : Inv s) : Inv (step s i) := by
  obtain ⟨turns,accounts⟩ := inv
  cases i with
  | spawn k =>
    rw [step]
    split
    · rename_i absent
      refine ⟨turns_set s k _ turns ?_ ?_ ?_ ?_,phase_accounts s k .waiting accounts⟩
      · exact fun _ => turns.unstarted k (Or.inl absent)
      · intro active
        rcases active with running | ⟨_,finishing⟩
        · cases running
        · cases finishing
      · rw [absent]
        exact Phase.noConfusion
      · exact Phase.noConfusion
    · exact ⟨turns,accounts⟩
  | acquire k =>
    rw [step]
    split
    · rename_i waiting free
      refine ⟨acquire_turns s k turns waiting free,?_⟩
      exact accounts_same _ _ (phase_accounts s k .running accounts) (fun _ => ⟨rfl,rfl⟩) id (fun _ => rfl) rfl
        (fun _ member => List.mem_append_left _ member)
    · exact ⟨turns,accounts⟩
  | emit k chunk =>
    rw [step]
    split
    · rename_i running
      split_ifs
      · exact ⟨turns_same s _ turns (set_same s k _ Run.phase rfl) rfl rfl id (fun _ _ => Iff.rfl),
          emit_accounts s k chunk turns accounts running⟩
      · exact ⟨turns,accounts⟩
    · exact ⟨turns,accounts⟩
  | returns k outcome =>
    rw [step]
    split
    · rename_i running
      refine ⟨turns_set s k _ turns ?_ ?_ ?_ ?_,phase_accounts s k _ accounts⟩
      · intro early
        rcases early with absent | waiting
        · cases absent
        · cases waiting
      · exact fun _ => turns.holder k (Or.inl running)
      · rw [running]
        exact Phase.noConfusion
      · exact Phase.noConfusion
    · exact ⟨turns,accounts⟩
  | take k =>
    rw [step]
    split
    · rename_i idle first
      exact ⟨turns_same s _ turns (set_same s k _ Run.phase rfl) rfl rfl id (fun _ _ => Iff.rfl),
        take_accounts s k _ _ accounts idle first⟩
    · exact ⟨turns,accounts⟩
  | forward k =>
    rw [step]
    split
    · rename_i delta held
      split_ifs
      · exact ⟨forward_turns s k delta turns,forward_accounts s k delta accounts held⟩
      · exact ⟨turns,accounts⟩
    · exact ⟨turns,accounts⟩
  | finish k =>
    rw [step]
    split
    · rename_i finish finishing
      split_ifs
      · exact ⟨finish_turns s k finish turns finishing,finish_accounts s k finish accounts⟩
      · exact ⟨turns,accounts⟩
    · exact ⟨turns,accounts⟩
  | recv => exact queue_inv s _ ⟨turns,accounts⟩ rfl rfl rfl rfl id
  | other =>
    rw [step]
    split_ifs
    · exact queue_inv s _ ⟨turns,accounts⟩ rfl rfl rfl rfl id
    · exact ⟨turns,accounts⟩
  | close => exact queue_inv s _ ⟨turns,accounts⟩ rfl rfl rfl rfl (fun opened => Bool.noConfusion opened)

/-- A run that has finished is not active any more. -/
theorem active_unfinished (s : Session) (k : Nat) (finish : Finish) (turns : Turns s) (active : (s.runs k).active) :
    Entry.finish k finish ∉ s.entered := by
  intro member
  have past := turns.ended k finish member
  rcases active with running | ⟨_,finishing⟩
  · rw [running] at past
    cases past
  · rw [finishing] at past
    cases past

theorem split_concat {α : Type} (l before after : List α) (a b : α) (same : l ++ [a] = before ++ b :: after) :
    (after = [] ∧ before = l ∧ b = a) ∨ ∃ earlier, after = earlier ++ [a] ∧ l = before ++ b :: earlier := by
  cases List.eq_nil_or_concat after with
  | inl none =>
    subst none
    obtain ⟨front,last⟩ := List.append_inj' same rfl
    exact Or.inl ⟨rfl,front.symm,(List.cons.inj last).1.symm⟩
  | inr more =>
    obtain ⟨earlier,last,rfl⟩ := more
    rw [List.concat_eq_append,← List.cons_append,← List.append_assoc] at same
    obtain ⟨front,ends⟩ := List.append_inj' same rfl
    exact Or.inr ⟨earlier,by rw [List.concat_eq_append,(List.cons.inj ends).1],front⟩

/-- While the entries close their streams, a run with something left has not finished. -/
theorem active_of_left (s : Session) (k : Nat) (inv : Inv s) (strong : Strong s) (opened : s.closed = false)
    (more : left (s.runs k) ≠ []) : (s.runs k).active := by
  have account := inv.accounts.account opened k
  have some : (s.runs k).produced ≠ [] := by
    rw [← account]
    exact List.append_ne_nil_of_right_ne_nil _ more
  have there := inv.accounts.started k some
  cases phase : (s.runs k).phase with
  | absent => exact absurd there (inv.turns.unstarted k (Or.inl phase))
  | waiting => exact absurd there (inv.turns.unstarted k (Or.inr phase))
  | running => exact Or.inl phase
  | finishing finish => exact Or.inr ⟨finish,phase⟩
  | done =>
    obtain ⟨finish,member⟩ := inv.turns.finished opened k phase
    obtain ⟨before,after,split⟩ := List.append_of_mem member
    obtain ⟨whole,none⟩ := strong.closes k finish before after split
    have all : chunksOf k s.entered = (s.runs k).produced := by
      have parts : chunksOf k s.entered = chunksOf k before ++ chunksOf k after := by
        rw [split]
        simp only [chunksOf,List.filterMap_append,List.filterMap_cons]
      rw [parts,whole,none,List.append_nil]
    rw [all] at account
    exact absurd (List.append_right_eq_self.mp account) more

theorem idxOf_le_last (turns : List Nat) (distinct : turns.Nodup) (last a : Nat) (ends : turns.getLast? = some last)
    (member : a ∈ turns) : turns.idxOf a ≤ turns.idxOf last := by
  obtain ⟨front,split⟩ := List.getLast?_eq_some_iff.mp ends
  have bound := List.idxOf_lt_length_of_mem member
  have absent : last ∉ front := by
    rw [split] at distinct
    intro older
    exact (List.nodup_append.mp distinct).2.2 last older last (List.mem_singleton_self last) rfl
  rw [split,List.idxOf_append_of_notMem absent,List.idxOf_cons_self]
  rw [split,List.length_append,List.length_singleton] at bound
  omega

theorem closes_same (s s' : Session) (strong : Strong s) (entered : s'.entered = s.entered)
    (order : s.turns <+: s'.turns) (entrants : ∀ k ∈ chunkRuns s.entered, k ∈ s.turns)
    (produced : ∀ k finish, Entry.finish k finish ∈ s.entered → (s'.runs k).produced = (s.runs k).produced) :
    Strong s' := by
  refine ⟨?_,?_⟩
  · intro k finish before after split
    rw [entered] at split
    have member : Entry.finish k finish ∈ s.entered := by
      rw [split]
      exact List.mem_append_right _ List.mem_cons_self
    rw [produced k finish member]
    exact strong.closes k finish before after split
  · rw [entered]
    obtain ⟨later,grown⟩ := order
    apply strong.ranked.imp_of_mem
    intro a b first second ranks
    rw [← grown,List.idxOf_append_of_mem (entrants a first),List.idxOf_append_of_mem (entrants b second)]
    exact ranks

theorem forward_strong (s : Session) (k : Nat) (delta : Delta) (inv : Inv s) (strong : Strong s)
    (held : (s.runs k).inHand = some delta) :
    Strong ((s.set k { s.runs k with inHand := none }).notify (.chunk k delta)) := by
  have produced := set_same s k { s.runs k with inHand := none } Run.produced rfl
  unfold Session.notify
  split_ifs with closed
  · exact closes_same s _ strong rfl List.prefix_rfl inv.accounts.entrants (fun j _ _ => produced j)
  · have opened : s.closed = false := by simpa using closed
    have more : left (s.runs k) ≠ [] := by
      rw [left_inHand _ _ held]
      exact List.cons_ne_nil _ _
    have active := active_of_left s k inv strong opened more
    refine ⟨?_,?_⟩
    · intro j finish before after split
      rw [produced j]
      rcases split_concat _ _ _ _ _ split with ⟨_,_,clash⟩ | ⟨earlier,rfl,older⟩
      · cases clash
      · have whole := strong.closes j finish before earlier older
        refine ⟨whole.1,?_⟩
        have other : k ≠ j := by
          intro same
          apply active_unfinished s k finish inv.turns active
          rw [same,show s.entered = before ++ .finish j finish :: earlier from older]
          exact List.mem_append_right _ List.mem_cons_self
        rw [chunksOf_chunk,if_neg other,whole.2,List.append_nil]
    · have ends := (inv.turns.holder k active).2
      simp only [set_entered,set_turns,chunkRuns_chunk]
      apply List.pairwise_append.mpr
      refine ⟨strong.ranked,List.pairwise_singleton _ k,?_⟩
      intro a member b newest
      rw [List.mem_singleton.mp newest]
      exact idxOf_le_last s.turns inv.turns.distinct k a ends (inv.accounts.entrants a member)

theorem finish_strong (s : Session) (k : Nat) (finish : Finish) (inv : Inv s) (strong : Strong s)
    (drained : s.closed = false → left (s.runs k) = []) :
    Strong { (s.set k { s.runs k with phase := .done }).notify (.finish k finish) with lock := none } := by
  have produced := set_same s k { s.runs k with phase := .done } Run.produced rfl
  unfold Session.notify
  split_ifs with closed
  · exact closes_same s _ strong rfl List.prefix_rfl inv.accounts.entrants (fun j _ _ => produced j)
  · have opened : s.closed = false := by simpa using closed
    refine ⟨?_,?_⟩
    · intro j ended before after split
      dsimp only at split ⊢
      rw [produced j]
      rcases split_concat _ _ _ _ _ split with ⟨rfl,rfl,same⟩ | ⟨earlier,rfl,older⟩
      · have mine := (Entry.finish.inj same).1
        have account := inv.accounts.account opened k
        rw [drained opened,List.append_nil] at account
        rw [mine]
        exact ⟨account,rfl⟩
      · have whole := strong.closes j ended before earlier older
        rw [chunksOf_finish]
        exact whole
    · simp only [set_entered,set_turns,chunkRuns_finish]
      exact strong.ranked

/-- A run goes on without producing a chunk. -/
theorem set_strong (s : Session) (k : Nat) (run : Run) (inv : Inv s) (strong : Strong s)
    (same : run.produced = (s.runs k).produced) : Strong (s.set k run) := by
  apply closes_same s (s.set k run) strong rfl List.prefix_rfl inv.accounts.entrants
  intro j _ _
  exact set_same s k run Run.produced same j

theorem step_strong (s : Session) (i : Step) (inv : Inv s) (strong : Strong s) (drained : Drained s i) :
    Strong (step s i) := by
  have kept : ∀ s' : Session, s'.entered = s.entered → s.turns <+: s'.turns →
      (∀ k finish, Entry.finish k finish ∈ s.entered → (s'.runs k).produced = (s.runs k).produced) → Strong s' :=
    fun s' entered order produced => closes_same s s' strong entered order inv.accounts.entrants produced
  cases i with
  | spawn k =>
    rw [step]
    split
    · exact set_strong s k _ inv strong rfl
    · exact strong
  | acquire k =>
    rw [step]
    split
    · apply kept
      · rfl
      · exact List.prefix_append _ _
      · intro j _ _
        apply set_same s k _ Run.produced
        rfl
    · exact strong
  | emit k chunk =>
    rw [step]
    split
    · rename_i running
      split_ifs
      · apply kept
        · rfl
        · exact List.prefix_rfl
        · intro j finish member
          have other : j ≠ k := by
            intro same
            rw [same] at member
            exact active_unfinished s k finish inv.turns (Or.inl running) member
          rw [set_runs,if_neg other]
      · exact strong
    · exact strong
  | returns k outcome =>
    rw [step]
    split
    · exact set_strong s k _ inv strong rfl
    · exact strong
  | take k =>
    rw [step]
    split
    · exact set_strong s k _ inv strong rfl
    · exact strong
  | forward k =>
    rw [step]
    split
    · rename_i delta held
      split_ifs
      · exact forward_strong s k delta inv strong held
      · exact strong
    · exact strong
  | finish k =>
    rw [step]
    split
    · rename_i finish finishing
      split_ifs with room
      · exact finish_strong s k finish inv strong (fun opened => drained opened room ⟨finish,finishing⟩)
      · exact strong
    · exact strong
  | recv => exact kept _ rfl List.prefix_rfl (fun _ _ _ => rfl)
  | other =>
    rw [step]
    split_ifs
    · exact kept _ rfl List.prefix_rfl (fun _ _ _ => rfl)
    · exact strong
  | close => exact kept _ rfl List.prefix_rfl (fun _ _ _ => rfl)

theorem streamed_of_strong (s : Session) (inv : Inv s) (strong : Strong s) : Streamed s := by
  refine ⟨inv.accounts.ordered,strong.closes,?_⟩
  intro i j different between
  have ranks := strong.ranked.sublist between
  obtain ⟨first,rest⟩ := List.pairwise_cons.mp ranks
  have below := first j List.mem_cons_self
  have above := (List.pairwise_cons.mp rest).1 i List.mem_cons_self
  have there := inv.accounts.entrants i (between.mem List.mem_cons_self)
  exact different ((List.idxOf_inj there).mp (Nat.le_antisymm below above))

theorem drained_of_streamed (s : Session) (i : Step) (inv : Inv s) (streamed : Streamed (step s i)) : Drained s i := by
  cases i with
  | finish k =>
    intro opened room finishing
    obtain ⟨finish,phase⟩ := finishing
    rw [step] at streamed
    simp only [phase,room,if_true] at streamed
    have closes := streamed.closes k finish s.entered []
    simp only [notify_entered,set_closed,opened,Bool.false_eq_true,if_false,set_entered,notify_runs,set_runs,if_true,
      true_implies] at closes
    have account := inv.accounts.account opened k
    rw [closes.1] at account
    exact List.append_right_eq_self.mp account
  | _ => exact True.intro

theorem finish_closes_stream_iff (steps : List Step) :
    Always step Streamed start steps ↔ Along step Drained start steps := by
  apply always_iff_along_forced step Drained Streamed Strong Inv
  · exact step_inv
  · exact step_strong
  · exact streamed_of_strong
  · exact drained_of_streamed
  · refine ⟨⟨fun _ _ => List.not_mem_nil,?_,?_,?_,List.nodup_nil⟩,⟨fun _ _ => rfl,fun _ => List.prefix_rfl,?_,?_⟩⟩
    · intro k active
      rcases active with running | ⟨_,finishing⟩
      · cases running
      · cases finishing
    · intro _ k past
      cases past
    · intro k finish member
      cases member
    · intro k some
      exact absurd rfl some
    · intro k member
      cases member
  · refine ⟨?_,List.Pairwise.nil⟩
    intro k finish before after split
    exact absurd split.symm (List.append_ne_nil_of_right_ne_nil _ (List.cons_ne_nil _ _))

/-- The run task pushes its finish while the one chunk is still in the forwarder's channel. -/
theorem finish_overtakes_chunk :
    (run step start [.spawn 0,.acquire 0,.emit 0 (.text "hi" false),.returns 0 (.ok "hi" .stop),.finish 0,.take 0,
      .forward 0]).entered = [.finish 0 ⟨some "hi","stop"⟩,.chunk 0 ⟨"hi",false⟩] ∧
    ¬Streamed (run step start [.spawn 0,.acquire 0,.emit 0 (.text "hi" false),.returns 0 (.ok "hi" .stop),.finish 0,
      .take 0,.forward 0]) := by
  refine ⟨rfl,?_⟩
  intro streamed
  have closes := streamed.closes 0 ⟨some "hi","stop"⟩ [] [.chunk 0 ⟨"hi",false⟩] rfl
  exact absurd closes.2 (by decide)

end ClawKernel.Server.Streams
