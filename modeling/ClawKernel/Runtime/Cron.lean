import ClawKernel.Lib.Json
import ClawKernel.Lib.Runs
import ClawKernel.Lib.Tables

/-! `CronScheduler` with a `TriggerStore`: the jobs in memory, the rows that outlive the
process, and the operations on both. The cron crate is a parameter: `fromStr` parses
an expression and `upcoming` is its next fire time after an instant, in nanoseconds.
-/
namespace ClawKernel.Runtime.Cron
open Lib Lib.Runs Lib.Tables

inductive CronError where
  | invalidExpression (expr reason : String)
  | neverFires (expr : String)
  | alreadyExists (triggerId : String)
  deriving DecidableEq, Repr

structure CronJob where
  triggerId : String
  expr : String
  targetAgent : Option String
  nextFire : Nat
  createdAt : Nat
  enabled : Bool
  deriving DecidableEq, Repr

structure TriggerRecord where
  triggerId : String
  triggerType : String
  config : Json.Value
  targetAgent : Option String
  createdAt : Nat
  enabled : Bool
  lastFiredAt : Option Nat
  fireCount : Nat
  deriving Repr

def nanos : Nat := 1000000000

def timestamp (instant : Nat) : Nat := instant / nanos

structure Scheduler where
  jobs : Table String CronJob
  store : Table String TriggerRecord
  /-- The `TriggerFired` events on the bus: trigger id and target. -/
  published : List (String × Option String)

def withStore : Scheduler := ⟨∅,∅,[]⟩

def updateLastFired (store : Table String TriggerRecord) (triggerId : String) (firedAt : Nat) :
    Table String TriggerRecord :=
  modify store triggerId (fun record =>
    { record with lastFiredAt := some firedAt, fireCount := record.fireCount + 1 })

section Operations
variable {Schedule : Type} (fromStr : String → Except String Schedule) (upcoming : Schedule → Nat → Option Nat)

def add (now : Nat) (s : Scheduler) (expr triggerId : String) (target : Option String) :
    Scheduler × Except CronError Unit :=
  match fromStr expr with
  | .error reason => (s,.error (.invalidExpression expr reason))
  | .ok schedule =>
    match upcoming schedule now with
    | none => (s,.error (.neverFires expr))
    | some nextFire =>
      if triggerId ∈ s.jobs then (s,.error (.alreadyExists triggerId))
      else
        ({ s with
            jobs := s.jobs.insert triggerId ⟨triggerId,expr,target,nextFire,now,true⟩
            store := s.store.insert triggerId
              ⟨triggerId,"cron",.object [("expr",.string expr)],target,timestamp now,true,none,0⟩ },.ok ())

def remove (s : Scheduler) (triggerId : String) : Scheduler × Bool :=
  if triggerId ∈ s.jobs then
    ({ s with jobs := s.jobs.erase triggerId, store := s.store.erase triggerId },true)
  else (s,false)

/-- The job `restore_from_store` makes of a record of `list_all`, `none` where it skips it. -/
def restored (now : Nat) (_triggerId : String) (record : TriggerRecord) : Option CronJob :=
  if !record.enabled || record.triggerType != "cron" then none
  else
    match (record.config.get "expr").bind Json.Value.asStr with
    | none => none
    | some expr =>
      match fromStr expr with
      | .error _ => none
      | .ok schedule =>
        match upcoming schedule now with
        | none => none
        | some nextFire =>
          some ⟨record.triggerId,expr,record.targetAgent,nextFire,record.createdAt * nanos,record.enabled⟩

-- each record is filed under its own primary key, so the order of `list_all` does not show
def restoreFromStore (now : Nat) (s : Scheduler) : Scheduler :=
  { s with jobs := s.store.entries.foldl (fill (restored fromStr upcoming now)) s.jobs }

/-- One round of the firing loop: publish, record, and find the next fire time; the
ids whose expression has none are collected. -/
def fire (now : Nat) (acc : Scheduler × List String) (due : String × Option String) : Scheduler × List String :=
  let s := { acc.1 with
    published := acc.1.published ++ [due]
    store := updateLastFired acc.1.store due.1 (timestamp now) }
  match s.jobs.lookup due.1 with
  | none => (s,acc.2)
  | some job =>
    match fromStr job.expr with
    | .error _ => (s,acc.2 ++ [due.1])
    | .ok schedule =>
      match upcoming schedule now with
      | none => (s,acc.2 ++ [due.1])
      | some next => ({ s with jobs := s.jobs.insert due.1 { job with nextFire := next } },acc.2)

def toFire (now : Nat) (s : Scheduler) : List (String × Option String) :=
  (s.jobs.entries.filter (fun entry => entry.2.enabled && decide (entry.2.nextFire ≤ now))).map
    (fun entry => (entry.1,entry.2.targetAgent))

def dropJob (s : Scheduler) (triggerId : String) : Scheduler :=
  { s with jobs := s.jobs.erase triggerId, store := s.store.erase triggerId }

/-- The body of the loop in `run`. -/
def tick (now : Nat) (s : Scheduler) : Scheduler :=
  let (fired,exhausted) := (toFire now s).foldl (fire fromStr upcoming now) (s,[])
  exhausted.foldl dropJob fired

/-! A scheduler over several processes, with the definitions it was asked to keep. -/

structure Life where
  scheduler : Scheduler
  /-- The last added definition of every id added and not since removed. -/
  wanted : Table String (String × Option String)
  /-- The process has started and not yet restored. -/
  pending : Bool

inductive Step where
  | add (now : Nat) (expr triggerId : String) (target : Option String)
  | remove (triggerId : String)
  | tick (now : Nat)
  | restart
  | restore (now : Nat)
  deriving DecidableEq, Repr

def opened : Life := ⟨withStore,∅,false⟩

def step (s : Life) : Step → Life
  | .add now expr triggerId target =>
    match add fromStr upcoming now s.scheduler expr triggerId target with
    | (after,.error _) => { s with scheduler := after }
    | (after,.ok _) => { s with scheduler := after, wanted := s.wanted.insert triggerId (expr,target) }
  | .remove triggerId =>
    { s with scheduler := (remove s.scheduler triggerId).1, wanted := s.wanted.erase triggerId }
  | .tick now => { s with scheduler := tick fromStr upcoming now s.scheduler }
  | .restart => { s with scheduler := { s.scheduler with jobs := ∅ }, pending := true }
  | .restore now => { s with scheduler := restoreFromStore fromStr upcoming now s.scheduler, pending := false }

/-! What a job and a row define, and that firing changes neither. -/

def CronJob.definition (job : CronJob) : String × Option String := (job.expr,job.targetAgent)

def TriggerRecord.definition (record : TriggerRecord) : Option (String × Option String) :=
  ((record.config.get "expr").bind Json.Value.asStr).map (fun expr => (expr,record.targetAgent))

def live (s : Scheduler) (triggerId : String) : Option (String × Option String) :=
  (s.jobs.lookup triggerId).map CronJob.definition

def stored (s : Scheduler) (triggerId : String) : Option (String × Option String) :=
  (s.store.lookup triggerId).bind TriggerRecord.definition

/-- The expression has a fire time after every instant. -/
def Lasts (expr : String) : Prop :=
  ∃ schedule, fromStr expr = .ok schedule ∧ ∀ now, ∃ next, upcoming schedule now = some next

structure Restorable (record : TriggerRecord) : Prop where
  enabled : record.enabled = true
  cron : record.triggerType = "cron"
  lasts : ∃ definition, record.definition = some definition ∧ Lasts fromStr upcoming definition.1

/-- Every row can be restored, and every job is the job of its row. -/
structure Fit (s : Scheduler) : Prop where
  rows : ∀ triggerId record, s.store.lookup triggerId = some record → Restorable fromStr upcoming record
  jobs : ∀ triggerId definition, live s triggerId = some definition → stored s triggerId = some definition

theorem updateLastFired_lookup (store : Table String TriggerRecord) (triggerId other : String) (firedAt : Nat) :
    (updateLastFired store triggerId firedAt).lookup other =
      (store.lookup other).map (fun record => if other = triggerId then
        { record with lastFiredAt := some firedAt, fireCount := record.fireCount + 1 } else record) := by
  rw [updateLastFired,lookup_modify]
  by_cases same : other = triggerId
  · subst same
    simp
  · simp [same]

theorem updateLastFired_rows (store : Table String TriggerRecord) (triggerId : String) (firedAt : Nat)
    (rows : ∀ id record, store.lookup id = some record → Restorable fromStr upcoming record) :
    ∀ id record, (updateLastFired store triggerId firedAt).lookup id = some record →
      Restorable fromStr upcoming record := by
  intro id record found
  rw [updateLastFired_lookup] at found
  obtain ⟨before,present,changed⟩ := Option.map_eq_some_iff.mp found
  have restorable := rows id before present
  rw [← changed]
  split
  · exact ⟨restorable.enabled,restorable.cron,restorable.lasts⟩
  · exact restorable

theorem updateLastFired_definition (store : Table String TriggerRecord) (triggerId other : String) (firedAt : Nat) :
    ((updateLastFired store triggerId firedAt).lookup other).bind TriggerRecord.definition =
      (store.lookup other).bind TriggerRecord.definition := by
  rw [updateLastFired_lookup]
  cases store.lookup other with
  | none => rfl
  | some record =>
    simp only [Option.map_some,Option.bind_some]
    split <;> rfl

theorem fit_lasts (s : Scheduler) (fit : Fit fromStr upcoming s) (triggerId : String) (job : CronJob)
    (found : s.jobs.lookup triggerId = some job) : Lasts fromStr upcoming job.expr := by
  have kept := fit.jobs triggerId job.definition (by rw [live,found,Option.map_some])
  obtain ⟨record,row,same⟩ := Option.bind_eq_some_iff.mp kept
  obtain ⟨definition,defined,lasts⟩ := (fit.rows triggerId record row).lasts
  rw [same,Option.some_inj] at defined
  rw [← defined] at lasts
  exact lasts

theorem fire_spec (now : Nat) (s : Scheduler) (exhausted : List String) (due : String × Option String)
    (fit : Fit fromStr upcoming s) :
    ∃ after, fire fromStr upcoming now (s,exhausted) due = (after,exhausted) ∧ Fit fromStr upcoming after ∧
      live after = live s ∧ stored after = stored s ∧ after.published = s.published ++ [due] := by
  have rows := updateLastFired_rows fromStr upcoming s.store due.1 (timestamp now) fit.rows
  have same : ∀ other, ((updateLastFired s.store due.1 (timestamp now)).lookup other).bind TriggerRecord.definition =
      stored s other := fun other => updateLastFired_definition s.store due.1 other (timestamp now)
  let noted : Scheduler := { s with
    published := s.published ++ [due]
    store := updateLastFired s.store due.1 (timestamp now) }
  cases found : s.jobs.lookup due.1 with
  | none =>
    refine ⟨noted,by simp only [fire,found,noted],⟨rows,?_⟩,rfl,funext same,rfl⟩
    intro id definition present
    exact (same id).trans (fit.jobs id definition present)
  | some job =>
    obtain ⟨schedule,parsed,lasting⟩ := fit_lasts fromStr upcoming s fit due.1 job found
    obtain ⟨next,upcomingNext⟩ := lasting now
    let after : Scheduler := { noted with jobs := s.jobs.insert due.1 { job with nextFire := next } }
    have lived : ∀ other, live after other = live s other := by
      intro other
      rw [live,lookup_insert_if,live]
      split
      · rename_i equal
        rw [equal,found]
        rfl
      · rfl
    refine ⟨after,by simp only [fire,found,parsed,upcomingNext,after,noted],⟨rows,?_⟩,funext lived,funext same,rfl⟩
    intro id definition present
    exact (same id).trans (fit.jobs id definition ((lived id).symm.trans present))

theorem fires_spec (now : Nat) (dues : List (String × Option String)) (s : Scheduler) (exhausted : List String)
    (fit : Fit fromStr upcoming s) :
    ∃ after, dues.foldl (fire fromStr upcoming now) (s,exhausted) = (after,exhausted) ∧ Fit fromStr upcoming after ∧
      live after = live s ∧ stored after = stored s ∧ after.published = s.published ++ dues := by
  induction dues generalizing s with
  | nil => exact ⟨s,rfl,fit,rfl,rfl,(List.append_nil _).symm⟩
  | cons due rest ih =>
    obtain ⟨once,fired,fits,lived,kept,noted⟩ := fire_spec fromStr upcoming now s exhausted due fit
    obtain ⟨after,folded,fitsAfter,livedAfter,keptAfter,notedAfter⟩ := ih once fits
    refine ⟨after,?_,fitsAfter,livedAfter.trans lived,keptAfter.trans kept,?_⟩
    · rw [List.foldl_cons,fired,folded]
    · rw [notedAfter,noted,List.append_assoc,List.singleton_append]

/-- A tick publishes what is due and changes no definition, as long as every expression lasts. -/
theorem tick_spec (now : Nat) (s : Scheduler) (fit : Fit fromStr upcoming s) :
    Fit fromStr upcoming (tick fromStr upcoming now s) ∧ live (tick fromStr upcoming now s) = live s ∧
      stored (tick fromStr upcoming now s) = stored s ∧
      (tick fromStr upcoming now s).published = s.published ++ toFire now s := by
  obtain ⟨after,folded,fits,lived,kept,noted⟩ := fires_spec fromStr upcoming now (toFire now s) s [] fit
  have same : tick fromStr upcoming now s = after := by simp only [tick,folded,List.foldl_nil]
  rw [same]
  exact ⟨fits,lived,kept,noted⟩

theorem toFire_live (now : Nat) (s : Scheduler) (due : String × Option String) (member : due ∈ toFire now s) :
    ∃ definition, live s due.1 = some definition := by
  obtain ⟨entry,kept,same⟩ := List.mem_map.mp member
  have found := (entry_iff s.jobs entry.1 entry.2).mp (List.mem_of_mem_filter kept)
  exact ⟨entry.2.definition,by rw [← same,live,found,Option.map_some]⟩

theorem restored_definition (now : Nat) (triggerId : String) (record : TriggerRecord)
    (restorable : Restorable fromStr upcoming record) :
    (restored fromStr upcoming now triggerId record).map CronJob.definition = record.definition := by
  obtain ⟨definition,defined,schedule,parsed,lasting⟩ := restorable.lasts
  obtain ⟨next,upcomingNext⟩ := lasting now
  obtain ⟨expr,read,same⟩ := Option.map_eq_some_iff.mp defined
  rw [← same] at parsed
  simp [restored,restorable.enabled,restorable.cron,read,parsed,upcomingNext,TriggerRecord.definition,
    CronJob.definition]

theorem restoreFromStore_live (now : Nat) (s : Scheduler) (fit : Fit fromStr upcoming s) :
    live (restoreFromStore fromStr upcoming now s) = stored s := by
  funext id
  have filled := lookup_foldl_fill (restored fromStr upcoming now) s.store.entries s.store.nodupKeys s.jobs id
  have rowOf : s.store.entries.dlookup id = s.store.lookup id := rfl
  rw [live,restoreFromStore,filled,rowOf]
  cases job : s.jobs.lookup id with
  | some found =>
    rw [Option.some_or,Option.map_some]
    exact (fit.jobs id found.definition (by rw [live,job,Option.map_some])).symm
  | none =>
    rw [Option.none_or,stored]
    cases row : s.store.lookup id with
    | none => rfl
    | some record =>
      rw [Option.bind_some,Option.bind_some]
      exact restored_definition fromStr upcoming now id record (fit.rows id record row)

/-! What the scheduler keeps over whole lives. -/

/-- An expression that has a fire time once keeps having one. -/
def Lasting (expr : String) : Prop :=
  ∀ schedule now next, fromStr expr = .ok schedule → upcoming schedule now = some next →
    ∀ later, ∃ after, upcoming schedule later = some after

def Allowed : Step → Prop
  | .add _ expr _ _ => Lasting fromStr upcoming expr
  | _ => True

/-- What holds in every state, whatever is removed when. -/
structure Base (s : Life) : Prop where
  fit : Fit fromStr upcoming s.scheduler
  wanted : ∀ triggerId definition, s.wanted.lookup triggerId = some definition →
    stored s.scheduler triggerId = some definition
  settled : s.pending = false → live s.scheduler = stored s.scheduler

/-- The store holds no row but those of the ids added and not since removed. -/
def Kept (s : Life) : Prop :=
  ∀ triggerId definition, stored s.scheduler triggerId = some definition →
    s.wanted.lookup triggerId = some definition

/-- The live jobs are the ids added and not since removed, with the last added definition. -/
def Settled (s : Life) : Prop :=
  s.pending = false → ∀ triggerId, live s.scheduler triggerId = s.wanted.lookup triggerId

/-- Now, and whenever the store is restored next. -/
def Faithful (s : Life) : Prop :=
  Settled s ∧ ∀ now, Settled (step fromStr upcoming s (.restore now))

/-- No id is removed that has a row and is not in memory. -/
def RemovesLive (s : Life) : Step → Prop
  | .remove triggerId => triggerId ∈ s.scheduler.store → triggerId ∈ s.scheduler.jobs
  | _ => True

theorem fit_restore (now : Nat) (s : Scheduler) (fit : Fit fromStr upcoming s) :
    Fit fromStr upcoming (restoreFromStore fromStr upcoming now s) := by
  refine ⟨fit.rows,fun id definition present => ?_⟩
  rw [restoreFromStore_live fromStr upcoming now s fit] at present
  exact present

theorem add_spec (now : Nat) (s : Scheduler) (expr triggerId : String) (target : Option String) :
    (∃ error, add fromStr upcoming now s expr triggerId target = (s,.error error)) ∨
    ∃ schedule nextFire, fromStr expr = .ok schedule ∧ upcoming schedule now = some nextFire ∧
      add fromStr upcoming now s expr triggerId target =
        ({ s with
            jobs := s.jobs.insert triggerId ⟨triggerId,expr,target,nextFire,now,true⟩
            store := s.store.insert triggerId
              ⟨triggerId,"cron",.object [("expr",.string expr)],target,timestamp now,true,none,0⟩ },.ok ()) := by
  unfold add
  cases parsed : fromStr expr with
  | error reason => exact .inl ⟨_,rfl⟩
  | ok schedule =>
    cases next : upcoming schedule now with
    | none => exact .inl ⟨.neverFires expr,by simp only [next]⟩
    | some nextFire =>
      by_cases present : triggerId ∈ s.jobs
      · exact .inl ⟨.alreadyExists triggerId,by simp only [next,present,if_true]⟩
      · exact .inr ⟨schedule,nextFire,rfl,next,by simp only [next,present,if_false]⟩

theorem faithful_iff (s : Life) (base : Base fromStr upcoming s) : Faithful fromStr upcoming s ↔ Kept s := by
  constructor
  · intro faithful id definition present
    have later := faithful.2 0 rfl id
    simp only [step,restoreFromStore_live fromStr upcoming 0 s.scheduler base.fit] at later
    rw [← later]
    exact present
  · intro kept
    have same : ∀ id, stored s.scheduler id = s.wanted.lookup id := by
      intro id
      ext definition
      exact ⟨kept id definition,base.wanted id definition⟩
    refine ⟨fun now id => by rw [base.settled now,same],fun now _ id => ?_⟩
    simp only [step,restoreFromStore_live fromStr upcoming now s.scheduler base.fit,same]

theorem remove_spec (s : Scheduler) (triggerId : String) (present : triggerId ∈ s.jobs) (other : String) :
    live (remove s triggerId).1 other = (if other = triggerId then none else live s other) ∧
    stored (remove s triggerId).1 other = (if other = triggerId then none else stored s other) := by
  simp only [remove,present,if_true,live,stored,lookup_erase_if]
  constructor <;> split <;> rfl

theorem base_add (now : Nat) (s : Life) (expr triggerId : String) (target : Option String)
    (base : Base fromStr upcoming s) (lasting : Lasting fromStr upcoming expr) :
    Base fromStr upcoming (step fromStr upcoming s (.add now expr triggerId target)) ∧
    (Kept s → Kept (step fromStr upcoming s (.add now expr triggerId target))) := by
  rcases add_spec fromStr upcoming now s.scheduler expr triggerId target with
    ⟨error,failed⟩ | ⟨schedule,nextFire,parsed,next,added⟩
  · simp only [step,failed]
    exact ⟨⟨base.fit,base.wanted,base.settled⟩,id⟩
  · simp only [step,added]
    let record : TriggerRecord :=
      ⟨triggerId,"cron",.object [("expr",.string expr)],target,timestamp now,true,none,0⟩
    let job : CronJob := ⟨triggerId,expr,target,nextFire,now,true⟩
    let after : Scheduler := { s.scheduler with
      jobs := s.scheduler.jobs.insert triggerId job
      store := s.scheduler.store.insert triggerId record }
    have lived (other : String) :
        live after other = if other = triggerId then some (expr,target) else live s.scheduler other := by
      simp only [live,after,lookup_insert_if]
      split <;> rfl
    have defined : record.definition = some (expr,target) := by simp [record,TriggerRecord.definition,Json.Value.get,
      Json.Value.asStr]
    have rowed (other : String) :
        stored after other = if other = triggerId then some (expr,target) else stored s.scheduler other := by
      simp only [stored,after,lookup_insert_if]
      split
      · exact defined
      · rfl
    refine ⟨⟨⟨?_,?_⟩,?_,?_⟩,?_⟩
    · intro id found present
      rcases lookup_of_insert _ triggerId id _ found present with ⟨_,new⟩ | ⟨_,earlier⟩
      · rw [new]
        exact ⟨rfl,rfl,(expr,target),defined,schedule,parsed,fun later => lasting schedule now nextFire parsed next later⟩
      · exact base.fit.rows id found earlier
    · intro id definition present
      rw [lived] at present
      rw [rowed]
      exact included_if _ _ base.fit.jobs triggerId _ id definition present
    · intro id definition present
      rw [lookup_insert_if] at present
      rw [rowed]
      exact included_if _ _ base.wanted triggerId _ id definition present
    · intro done
      funext id
      rw [lived,rowed,base.settled done]
    · intro kept id definition present
      rw [rowed] at present
      rw [lookup_insert_if]
      exact included_if _ _ kept triggerId _ id definition present

theorem remove_absent (s : Scheduler) (triggerId : String) (absent : triggerId ∉ s.jobs) :
    (remove s triggerId).1 = s := by
  simp only [remove,absent,if_false]

theorem base_remove (s : Life) (triggerId : String) (base : Base fromStr upcoming s) :
    Base fromStr upcoming (step fromStr upcoming s (.remove triggerId)) := by
  by_cases present : triggerId ∈ s.scheduler.jobs
  · have spec := remove_spec s.scheduler triggerId present
    refine ⟨⟨?_,?_⟩,?_,?_⟩
    · intro id record found
      simp only [step,remove,present,if_true] at found
      exact base.fit.rows id record (lookup_of_erase _ triggerId id record found).2
    · intro id definition found
      simp only [step,(spec id).1,(spec id).2] at found ⊢
      exact included_if _ _ base.fit.jobs triggerId none id definition found
    · intro id definition found
      simp only [step,lookup_erase_if] at found
      simp only [step,(spec id).2]
      exact included_if _ _ base.wanted triggerId none id definition found
    · intro done
      funext id
      simp only [step,(spec id).1,(spec id).2,base.settled done]
  · refine ⟨?_,?_,?_⟩
    · simpa only [step,remove_absent s.scheduler triggerId present] using base.fit
    · intro id definition found
      simp only [step,remove_absent s.scheduler triggerId present] at found ⊢
      exact base.wanted id definition (lookup_of_erase s.wanted triggerId id definition found).2
    · simpa only [step,remove_absent s.scheduler triggerId present] using base.settled

theorem base_step (s : Life) (i : Step) (base : Base fromStr upcoming s) (allowed : Allowed fromStr upcoming i) :
    Base fromStr upcoming (step fromStr upcoming s i) := by
  cases i with
  | add now expr triggerId target => exact (base_add fromStr upcoming now s expr triggerId target base allowed).1
  | remove triggerId => exact base_remove fromStr upcoming s triggerId base
  | tick now =>
    obtain ⟨fits,lived,kept,_⟩ := tick_spec fromStr upcoming now s.scheduler base.fit
    refine ⟨fits,?_,?_⟩
    · intro id definition found
      simp only [step,kept]
      exact base.wanted id definition found
    · intro done
      simp only [step,lived,kept]
      exact base.settled done
  | restart =>
    exact ⟨⟨base.fit.rows,fun id definition found => by simp [step,live] at found⟩,base.wanted,
      fun done => absurd done (by simp [step])⟩
  | restore now =>
    exact ⟨fit_restore fromStr upcoming now s.scheduler base.fit,base.wanted,
      fun _ => restoreFromStore_live fromStr upcoming now s.scheduler base.fit⟩

/-- A step keeps the store in agreement with what is wanted exactly when it removes no
id that has a row and is not in memory. -/
theorem kept_step_iff (s : Life) (i : Step) (base : Base fromStr upcoming s) (allowed : Allowed fromStr upcoming i)
    (kept : Kept s) : Kept (step fromStr upcoming s i) ↔ RemovesLive s i := by
  cases i with
  | add now expr triggerId target =>
    exact iff_of_true ((base_add fromStr upcoming now s expr triggerId target base allowed).2 kept) trivial
  | tick now =>
    obtain ⟨_,_,same,_⟩ := tick_spec fromStr upcoming now s.scheduler base.fit
    refine iff_of_true (fun id definition found => ?_) trivial
    simp only [step,same] at found
    exact kept id definition found
  | restart => exact iff_of_true kept trivial
  | restore now => exact iff_of_true kept trivial
  | remove triggerId =>
    by_cases present : triggerId ∈ s.scheduler.jobs
    · refine iff_of_true (fun id definition found => ?_) (fun _ => present)
      simp only [step,(remove_spec s.scheduler triggerId present id).2,lookup_erase_if] at found ⊢
      exact included_if _ _ kept triggerId none id definition found
    · have unchanged := remove_absent s.scheduler triggerId present
      constructor
      · intro keptAfter row
        obtain ⟨record,found⟩ := Option.isSome_iff_exists.mp (AList.lookup_isSome.mpr row)
        obtain ⟨definition,defined,_⟩ := (base.fit.rows triggerId record found).lasts
        have still := keptAfter triggerId definition
          (by simp only [step,unchanged,stored,found,Option.bind_some]; exact defined)
        simp [step] at still
      · intro live id definition found
        simp only [step,unchanged,lookup_erase_if] at found ⊢
        split
        · rename_i same
          obtain ⟨record,row,_⟩ := Option.bind_eq_some_iff.mp found
          have stands : triggerId ∈ s.scheduler.store := by
            rw [same] at row
            exact AList.lookup_isSome.mp (Option.isSome_of_eq_some row)
          exact absurd (live stands) present
        · exact kept id definition found

def firings (s : Life) (triggerId : String) : List (String × Option String) :=
  s.scheduler.published.filter (fun event => event.1 = triggerId)

def Adds (triggerId : String) : Step → Prop
  | .add _ _ id _ => id = triggerId
  | _ => False

/-- Removed, and nowhere left: nothing in the store, so nothing in memory, now or later. -/
structure Gone (triggerId : String) (s : Life) : Prop where
  base : Base fromStr upcoming s
  kept : Kept s
  unwanted : s.wanted.lookup triggerId = none

theorem gone_live (triggerId : String) (s : Life) (gone : Gone fromStr upcoming triggerId s) :
    live s.scheduler triggerId = none := by
  cases found : live s.scheduler triggerId with
  | none => rfl
  | some definition =>
    have wanted := gone.kept triggerId definition (gone.base.fit.jobs triggerId definition found)
    rw [gone.unwanted] at wanted
    cases wanted

theorem gone_step (triggerId : String) (s : Life) (i : Step) (gone : Gone fromStr upcoming triggerId s)
    (allowed : Allowed fromStr upcoming i) (other : ¬Adds triggerId i) (meets : RemovesLive s i) :
    Gone fromStr upcoming triggerId (step fromStr upcoming s i) ∧
      firings (step fromStr upcoming s i) triggerId = firings s triggerId := by
  have base := base_step fromStr upcoming s i gone.base allowed
  have kept := (kept_step_iff fromStr upcoming s i gone.base allowed gone.kept).mpr meets
  cases i with
  | add now expr id target =>
    have different : triggerId ≠ id := fun same => other same.symm
    rcases add_spec fromStr upcoming now s.scheduler expr id target with
      ⟨error,failed⟩ | ⟨schedule,nextFire,parsed,next,added⟩
    · exact ⟨⟨base,kept,by simpa only [step,failed] using gone.unwanted⟩,by simp only [step,failed,firings]⟩
    · refine ⟨⟨base,kept,?_⟩,by simp only [step,added,firings]⟩
      simp only [step,added,lookup_insert_if,if_neg different]
      exact gone.unwanted
  | remove id =>
    refine ⟨⟨base,kept,?_⟩,?_⟩
    · simp only [step,lookup_erase_if,gone.unwanted,ite_self]
    · simp only [firings,step,remove]
      split <;> rfl
  | tick now =>
    refine ⟨⟨base,kept,gone.unwanted⟩,?_⟩
    obtain ⟨_,_,_,published⟩ := tick_spec fromStr upcoming now s.scheduler gone.base.fit
    have silent : (toFire now s.scheduler).filter (fun event => event.1 = triggerId) = [] := by
      apply List.filter_eq_nil_iff.mpr
      intro event member same
      obtain ⟨definition,found⟩ := toFire_live now s.scheduler event member
      rw [of_decide_eq_true same,gone_live fromStr upcoming triggerId s gone] at found
      cases found
    simp only [firings,step,published,List.filter_append,silent,List.append_nil]
  | restart => exact ⟨⟨base,kept,gone.unwanted⟩,rfl⟩
  | restore now => exact ⟨⟨base,kept,gone.unwanted⟩,rfl⟩

theorem opened_base : Base fromStr upcoming opened :=
  ⟨⟨fun id record found => by simp [opened,withStore] at found,fun id definition found => by
    simp [opened,withStore,live] at found⟩,fun id definition found => by simp [opened] at found,fun _ => rfl⟩

/-- In a run whose expressions last, the live jobs are the ids added and not since removed, now and
whenever the store is restored next, exactly when no removed id has a row without being in memory.
In such a run an id that was removed does not fire again unless it is added again. -/
theorem jobs_survive_restarts_iff (steps : List Step) (lasting : ∀ i ∈ steps, Allowed fromStr upcoming i) :
    (Always (step fromStr upcoming) (Faithful fromStr upcoming) opened steps ↔
      Along (step fromStr upcoming) RemovesLive opened steps) ∧
    (Along (step fromStr upcoming) RemovesLive opened steps → ∀ before triggerId after,
      steps = before ++ .remove triggerId :: after → (∀ i ∈ after, ¬Adds triggerId i) →
      firings (run (step fromStr upcoming) opened steps) triggerId =
        firings (run (step fromStr upcoming) opened (before ++ [.remove triggerId])) triggerId) := by
  have start := opened_base fromStr upcoming
  have keptStart : Kept opened := fun id definition found => by simp [opened,withStore,stored] at found
  refine ⟨?_,?_⟩
  · apply always_iff_along (step fromStr upcoming) RemovesLive (Faithful fromStr upcoming) (Base fromStr upcoming)
      (Allowed fromStr upcoming) (base_step fromStr upcoming)
    · intro s i base allowed faithful
      rw [faithful_iff fromStr upcoming (step fromStr upcoming s i) (base_step fromStr upcoming s i base allowed)]
      exact kept_step_iff fromStr upcoming s i base allowed ((faithful_iff fromStr upcoming s base).mp faithful)
    · exact lasting
    · exact start
    · exact (faithful_iff fromStr upcoming opened start).mpr keptStart
  · intro along before triggerId after split silent
    rw [split,List.append_cons] at along lasting ⊢
    obtain ⟨alongBefore,alongAfter⟩ := (along_append _ _ _ _ _).mp along
    have states := run_invariant (step fromStr upcoming) (fun s i => Allowed fromStr upcoming i ∧ RemovesLive s i)
      (fun s => Base fromStr upcoming s ∧ Kept s)
      (fun s i both meets => ⟨base_step fromStr upcoming s i both.1 meets.1,
        (kept_step_iff fromStr upcoming s i both.1 meets.1 both.2).mpr meets.2⟩)
      opened (before ++ [.remove triggerId]) ⟨start,keptStart⟩
      (along_with _ _ _ _ _ (fun i member => lasting i (List.mem_append_left after member)) alongBefore)
    rw [run_append]
    let removed := run (step fromStr upcoming) opened (before ++ [.remove triggerId])
    have unwanted : removed.wanted.lookup triggerId = none := by
      simp only [removed,run_append]
      simp [run,step]
    have gone := run_invariant (step fromStr upcoming)
      (fun s i => (Allowed fromStr upcoming i ∧ ¬Adds triggerId i) ∧ RemovesLive s i)
      (fun s => Gone fromStr upcoming triggerId s ∧ firings s triggerId = firings removed triggerId)
      (fun s i both meets => by
        obtain ⟨next,same⟩ := gone_step fromStr upcoming triggerId s i both.1 meets.1.1 meets.1.2 meets.2
        exact ⟨next,same.trans both.2⟩)
      removed after ⟨⟨states.1,states.2,unwanted⟩,rfl⟩
      (along_with _ _ _ _ _ (fun i member => ⟨lasting i (List.mem_append_right _ member),silent i member⟩) alongAfter)
    exact gone.2

end Operations

/-- One expression, at the full minute. -/
def everyMinute (expr : String) : Except String Unit :=
  if expr = "0 * * * * *" then .ok () else .error "Invalid expression"

def nextMinute (_ : Unit) (now : Nat) : Option Nat := some ((now / (60 * nanos) + 1) * (60 * nanos))

instance removesLiveDecidable (s : Life) : (i : Step) → Decidable (RemovesLive s i)
  | .remove triggerId => inferInstanceAs (Decidable (triggerId ∈ s.scheduler.store → triggerId ∈ s.scheduler.jobs))
  | .add .. => inferInstanceAs (Decidable True)
  | .tick _ => inferInstanceAs (Decidable True)
  | .restart => inferInstanceAs (Decidable True)
  | .restore _ => inferInstanceAs (Decidable True)

theorem jobs_survive_restarts_iff_reminder :
    Always (step everyMinute nextMinute) (Faithful everyMinute nextMinute) opened
      [.add 0 "0 * * * * *" "report" none,.restart,.restore 1,.remove "report",.restart,.restore 2] := by
  refine (jobs_survive_restarts_iff everyMinute nextMinute _ ?_).1.mpr (by decide)
  intro i member
  cases i with
  | add => exact fun _ _ _ _ _ later => ⟨_,rfl⟩
  | _ => trivial

/-- A job removed after a restart and before the restore is live again afterwards, and fires. -/
theorem removed_job_restored :
    ¬Settled (run (step everyMinute nextMinute) opened
      [.add 0 "0 * * * * *" "report" none,.restart,.remove "report",.restore 1]) ∧
    firings (run (step everyMinute nextMinute) opened
      [.add 0 "0 * * * * *" "report" none,.restart,.remove "report",.restore 1,.tick 60000000000]) "report" =
      [("report",none)] := by
  refine ⟨fun settled => ?_,by decide⟩
  have wanted := settled rfl "report"
  revert wanted
  decide

end ClawKernel.Runtime.Cron
