import ClawKernel.Lib.Newest
import ClawKernel.Lib.Runs
import ClawKernel.Tools.Registry
import Mathlib.Algebra.Group.Nat.Defs

/-! The registry's log of calls: ids are drawn from a counter that also numbers the calls, and the
entries go in under the lock, in whatever order the callers get it.
-/
namespace ClawKernel.Tools.AuditLog
open Lib.Newest Lib.Runs
open Registry (LogEntry ToolRegistry)

/-- `pending` are the calls of `insert_log` that have drawn their id and wait for the lock, and `inserted`
are the entries that went in so far. -/
structure State where
  auditCounter : Nat
  auditLog : List (Nat × LogEntry)
  pending : List (Nat × LogEntry)
  inserted : List (Nat × LogEntry)

def new : State := ⟨1,[],[],[]⟩

inductive Step where
  | callId
  | insertLog (entry : LogEntry)
  | locked (call : Nat)

/-- `fetch_add` on the counter, which wraps. -/
def generateAuditId (s : State) : Nat × State := (s.auditCounter,{ s with auditCounter := (s.auditCounter + 1) % 2 ^ 64 })

section Registry
variable (maxAuditEntries : Nat)

def toRemove : Nat := max (maxAuditEntries / 10) 1

def evict (log : List (Nat × LogEntry)) : List (Nat × LogEntry) :=
  if log.length > maxAuditEntries then
    ((log.map Prod.fst).take (toRemove maxAuditEntries)).foldl (fun left key => remove key left) log
  else log

def step (s : State) : Step → State
  | .callId => (generateAuditId s).2
  | .insertLog entry =>
    let (key,drawn) := generateAuditId s
    { drawn with pending := drawn.pending ++ [(key,entry)] }
  | .locked call =>
    match s.pending[call]? with
    | none => s
    | some (key,entry) =>
      { s with
        auditLog := evict maxAuditEntries (put key entry s.auditLog)
        pending := s.pending.eraseIdx call
        inserted := s.inserted ++ [(key,entry)] }

/-- `recent_log` -/
def recentLog (s : State) (n : Nat) : List LogEntry := ((s.auditLog.map Prod.snd).reverse).take n

/-- The ids that went in. -/
def insertedIds (s : State) : Finset Nat := (s.inserted.map Prod.fst).toFinset

theorem evict_eq (log : List (Nat × LogEntry)) (ordered : Ordered log) :
    evict maxAuditEntries log = log.drop (if log.length > maxAuditEntries then toRemove maxAuditEntries else 0) := by
  unfold evict
  split
  · exact remove_first log ordered _
  · rfl

/-- What the log keeps to. -/
structure Inv (s : State) : Prop where
  ordered : Ordered s.auditLog
  bound : s.auditLog.length ≤ maxAuditEntries
  known : ∀ entry ∈ s.auditLog, entry ∈ s.inserted
  keeps : Keeps (maxAuditEntries - toRemove maxAuditEntries) (insertedIds s) s.auditLog

theorem locked_inv (s : State) (call key : Nat) (entry : LogEntry) (waits : s.pending[call]? = some (key,entry))
    (inv : Inv maxAuditEntries s) : Inv maxAuditEntries (step maxAuditEntries s (.locked call)) := by
  have ordered := put_ordered key entry s.auditLog inv.ordered
  have length := put_length key entry s.auditLog
  have bound := inv.bound
  have known : ∀ other ∈ put key entry s.auditLog, other ∈ s.inserted ++ [(key,entry)] := by
    intro other inside
    rcases (mem_put key entry s.auditLog inv.ordered other).mp inside with rfl | ⟨old,_⟩
    · exact List.mem_append_right _ List.mem_cons_self
    · exact List.mem_append_left _ (inv.known other old)
  have seen : ((s.inserted ++ [(key,entry)]).map Prod.fst).toFinset = insert key (insertedIds s) := by
    unfold insertedIds
    ext other
    simp
  have keeps := keeps_put _ (insertedIds s) s.auditLog key entry inv.ordered inv.keeps
  rw [← seen] at keeps
  simp only [step,waits,evict_eq maxAuditEntries _ ordered]
  refine ⟨drop_ordered _ ordered _,?_,fun other inside => known other (List.mem_of_mem_drop inside),?_⟩
  · rw [List.length_drop]
    unfold toRemove
    split <;> omega
  · split
    · rename_i full
      refine keeps_drop _ _ _ _ ordered (fun other inside => ?_) ?_ keeps
      · exact List.mem_toFinset.mpr (List.mem_map_of_mem (known other inside))
      · unfold toRemove
        omega
    · exact keeps

theorem step_inv (s : State) (i : Step) (inv : Inv maxAuditEntries s) : Inv maxAuditEntries (step maxAuditEntries s i) := by
  cases i with
  | callId => exact ⟨inv.ordered,inv.bound,inv.known,inv.keeps⟩
  | insertLog entry => exact ⟨inv.ordered,inv.bound,inv.known,inv.keeps⟩
  | locked call =>
    cases waits : s.pending[call]? with
    | none =>
      simp only [step,waits]
      exact inv
    | some waiting => exact locked_inv maxAuditEntries s call waiting.1 waiting.2 waits inv

theorem run_inv (steps : List Step) : Inv maxAuditEntries (run (step maxAuditEntries) new steps) := by
  refine run_always _ _ (step_inv maxAuditEntries) new steps ⟨List.Pairwise.nil,Nat.zero_le _,?_,?_⟩
  · exact fun entry inside => (List.not_mem_nil inside).elim
  · exact fun key inside => (List.not_mem_nil (List.mem_toFinset.mp inside)).elim

/-- What `recent_log` returns: of the entries in the log, those with the greatest ids, the newest first. -/
def ReturnsNewest (s : State) (n : Nat) : Prop :=
  ∃ older latest, s.auditLog = older ++ latest ∧ latest.length = min n s.auditLog.length ∧
    recentLog s n = latest.reverse.map Prod.snd ∧ (∀ entry ∈ older, ∀ later ∈ latest, entry.1 < later.1) ∧
    latest.reverse.Pairwise (fun later entry => entry.1 < later.1)

/-- What an insertion removes has smaller ids than all that it keeps. -/
def EvictsOldest (s : State) : Prop :=
  ∀ call key entry, s.pending[call]? = some (key,entry) → ∀ gone ∈ put key entry s.auditLog,
    gone ∉ (step maxAuditEntries s (.locked call)).auditLog →
      ∀ kept ∈ (step maxAuditEntries s (.locked call)).auditLog, gone.1 < kept.1

theorem returnsNewest (s : State) (ordered : Ordered s.auditLog) (n : Nat) : ReturnsNewest s n := by
  obtain ⟨older,latest,split,length,last,apart,descending⟩ := last_entries s.auditLog ordered n
  refine ⟨older,latest,split,length,?_,apart,descending⟩
  rw [recentLog,← List.map_reverse,← List.map_take,last]

theorem evictsOldest (s : State) (ordered : Ordered s.auditLog) : EvictsOldest maxAuditEntries s := by
  intro call key entry waits gone inside out kept stays
  have all := put_ordered key entry s.auditLog ordered
  simp only [step,waits,evict_eq maxAuditEntries _ all] at out stays
  generalize (if (put key entry s.auditLog).length > maxAuditEntries then toRemove maxAuditEntries else 0) = count at out stays
  rw [← List.take_append_drop count (put key entry s.auditLog)] at inside
  exact dropped_less _ all count gone kept ((List.mem_append.mp inside).resolve_right out) stays

/-- After every sequence of draws and insertions, in whatever order the callers get the lock: the log is within its
limit, the newest of all entries that went in are in it, up to the limit less one batch, the next insertion removes
the oldest, and `recent_log` returns the newest of the log. -/
theorem keeps_newest (steps : List Step) :
    (run (step maxAuditEntries) new steps).auditLog.length ≤ maxAuditEntries ∧
    (∀ id ∈ insertedIds (run (step maxAuditEntries) new steps),
      ((insertedIds (run (step maxAuditEntries) new steps)).filter (id < ·)).card <
          maxAuditEntries - max 1 (maxAuditEntries / 10) →
        id ∈ (run (step maxAuditEntries) new steps).auditLog.map Prod.fst) ∧
    EvictsOldest maxAuditEntries (run (step maxAuditEntries) new steps) ∧
    ∀ n, ReturnsNewest (run (step maxAuditEntries) new steps) n := by
  have inv := run_inv maxAuditEntries steps
  refine ⟨inv.bound,?_,evictsOldest maxAuditEntries _ inv.ordered,returnsNewest _ inv.ordered⟩
  intro id inside few
  refine inv.keeps id inside ?_
  unfold toRemove
  omega

/-- Every id that has been drawn is smaller than the next one. -/
def Later (s : State) : Prop := ∀ entry, entry ∈ s.pending ∨ entry ∈ s.inserted → entry.1 < s.auditCounter

theorem step_later (s : State) (i : Step) (room : s.auditCounter + 1 < 2 ^ 64) (later : Later s) :
    (step maxAuditEntries s i).auditCounter ≤ s.auditCounter + 1 ∧ Later (step maxAuditEntries s i) := by
  have next : (s.auditCounter + 1) % 2 ^ 64 = s.auditCounter + 1 := Nat.mod_eq_of_lt room
  unfold Later at later ⊢
  cases i with
  | callId =>
    simp only [step,generateAuditId,next]
    exact ⟨Nat.le_refl _,fun entry drawn => Nat.lt_succ_of_lt (later entry drawn)⟩
  | insertLog logged =>
    simp only [step,generateAuditId,next]
    refine ⟨Nat.le_refl _,fun entry drawn => ?_⟩
    rcases drawn with waits | old
    · rcases List.mem_append.mp waits with old | new
      · exact Nat.lt_succ_of_lt (later entry (.inl old))
      · rw [List.mem_singleton.mp new]
        exact Nat.lt_succ_self _
    · exact Nat.lt_succ_of_lt (later entry (.inr old))
  | locked call =>
    cases waits : s.pending[call]? with
    | none =>
      simp only [step,waits]
      exact ⟨Nat.le_succ _,later⟩
    | some waiting =>
      simp only [step,waits]
      refine ⟨Nat.le_succ _,fun entry drawn => ?_⟩
      rcases drawn with old | old
      · exact later entry (.inl (List.mem_of_mem_eraseIdx old))
      · rcases List.mem_append.mp old with old | new
        · exact later entry (.inr old)
        · rw [List.mem_singleton.mp new]
          exact later waiting (.inl (List.mem_of_getElem? waits))

/-- Until the counter wraps, a new id is greater than all that have been drawn. -/
theorem drawn_later (steps : List Step) (few : steps.length + 1 < 2 ^ 64) :
    (run (step maxAuditEntries) new steps).auditCounter ≤ steps.length + 1 ∧
      Later (run (step maxAuditEntries) new steps) := by
  induction steps using List.reverseRecOn with
  | nil =>
    refine ⟨Nat.le_refl 1,fun entry drawn => ?_⟩
    rcases drawn with old | old <;> cases old
  | append_singleton steps i ih =>
    rw [List.length_append,List.length_singleton] at few ⊢
    obtain ⟨count,later⟩ := ih (by omega)
    obtain ⟨one,still⟩ := step_later maxAuditEntries _ i (by omega) later
    rw [run_append]
    exact ⟨Nat.le_trans one (Nat.succ_le_succ count),still⟩

end Registry

/-- A call that nothing else comes between logs as in the registry's own steps. -/
theorem insertLog_alone (r : ToolRegistry) (entry : LogEntry) (ordered : Ordered r.auditLog)
    (older : ∀ old ∈ r.auditLog, old.1 < r.auditCounter) :
    (Registry.insertLog r entry).auditLog = evict r.maxAuditEntries (put r.auditCounter entry r.auditLog) := by
  rw [evict_eq _ _ (put_ordered _ _ _ ordered),put_last _ _ _ older]
  split
  · rename_i full
    exact if_pos full
  · rename_i fits
    rw [List.drop_zero]
    exact if_neg fits

end ClawKernel.Tools.AuditLog
