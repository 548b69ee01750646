import Mathlib.Order.Bounds.Basic
import Mathlib.Order.WellFounded
import ClawKernel.Runtime.Cron

/-! The ticks of `CronScheduler`, with every occurrence they fire and the moment each row was
saved. Of the cron crate it is assumed that `upcoming` gives the first occurrence after an instant.
-/
namespace ClawKernel.Runtime.Ticks
open Lib Lib.Runs Lib.Tables Cron

structure Ledger where
  life : Life
  /-- The latest reading of the clock. -/
  clock : Nat
  /-- How many events were on the bus when the row of an id was last saved. -/
  saved : String → Nat
  /-- The occurrences that were fired. -/
  fired : List (String × Nat)

def opened : Ledger := ⟨Cron.opened,0,fun _ => 0,[]⟩

def reading : Step → Option Nat
  | .add now _ _ _ => some now
  | .tick now => some now
  | .restore now => some now
  | _ => none

def due (now : Nat) (s : Scheduler) : List (String × Nat) :=
  (s.jobs.entries.filter (fun entry => entry.2.enabled && decide (entry.2.nextFire ≤ now))).map
    (fun entry => (entry.1,entry.2.nextFire))

section Ticks
variable {Schedule : Type} (fromStr : String → Except String Schedule) (upcoming : Schedule → Nat → Option Nat)
  (occurs : Schedule → Nat → Prop)

def step (l : Ledger) (i : Step) : Ledger where
  life := Cron.step fromStr upcoming l.life i
  clock := (reading i).getD l.clock
  saved :=
    match i with
    | .add now expr triggerId target =>
      match add fromStr upcoming now l.life.scheduler expr triggerId target with
      | (_,.ok _) => Function.update l.saved triggerId l.life.scheduler.published.length
      | (_,.error _) => l.saved
    | _ => l.saved
  fired :=
    match i with
    | .tick now => l.fired ++ due now l.life.scheduler
    | _ => l.fired

/-- The clock does not step back. -/
def Ordered (l : Ledger) (i : Step) : Prop := ∀ now ∈ reading i, l.clock ≤ now

instance (l : Ledger) (i : Step) : Decidable (Ordered l i) := inferInstanceAs (Decidable (∀ now ∈ reading i, l.clock ≤ now))

def FirstAfter : Prop :=
  ∀ schedule now t, upcoming schedule now = some t ↔ IsLeast {u | occurs schedule u ∧ now < u} t

/-- A tick fires the jobs that are due, each once, and no other; the jobs that remain wait for
their first occurrence after it, and those that do not had none. -/
structure Fires (now : Nat) (before after : Scheduler) : Prop where
  published : ∃ events, after.published = before.published ++ events ∧ (events.map Prod.fst).Nodup ∧
    ∀ id target, (id,target) ∈ events ↔ ∃ job, before.jobs.lookup id = some job ∧ job.enabled = true ∧
      job.nextFire ≤ now ∧ job.targetAgent = target
  next : ∀ id job, after.jobs.lookup id = some job → ∃ schedule, fromStr job.expr = .ok schedule ∧
    IsLeast {t | occurs schedule t ∧ now < t} job.nextFire
  leaves : ∀ id job, before.jobs.lookup id = some job → after.jobs.lookup id = none → job.nextFire ≤ now ∧
    ∀ schedule, fromStr job.expr = .ok schedule → ∀ t, occurs schedule t → t ≤ now

def TickFires (l : Ledger) : Step → Prop
  | .tick now => Fires fromStr occurs now l.life.scheduler (tick fromStr upcoming now l.life.scheduler)
  | _ => True

def firings (l : Ledger) (triggerId : String) : Nat :=
  (l.life.scheduler.published.drop (l.saved triggerId)).countP (fun event => event.1 = triggerId)

/-- No occurrence is fired twice, and a row counts the events of its job since it was saved. -/
structure Accounted (l : Ledger) : Prop where
  once : l.fired.Nodup
  counted : ∀ triggerId record, l.life.scheduler.store.lookup triggerId = some record →
    record.fireCount = firings l triggerId

/-! What one tick does to each job and each row. -/

def laterFire (now : Nat) (job : CronJob) : Option Nat :=
  match fromStr job.expr with
  | .error _ => none
  | .ok schedule => upcoming schedule now

def advanced (now : Nat) (job : CronJob) : CronJob :=
  { job with nextFire := (laterFire fromStr upcoming now job).getD job.nextFire }

def counted (now : Nat) (record : TriggerRecord) : TriggerRecord :=
  { record with lastFiredAt := some (timestamp now), fireCount := record.fireCount + 1 }

theorem lookup_updated (store : Table String TriggerRecord) (triggerId k : String) (now : Nat) :
    (updateLastFired store triggerId (timestamp now)).lookup k =
      if k = triggerId then (store.lookup k).map (counted now) else store.lookup k := by
  rw [updateLastFired,lookup_modify]
  split
  · rename_i same
    rw [same]
    rfl
  · rfl

theorem fire_eq (now : Nat) (s : Scheduler) (exhausted : List String) (event : String × Option String) (job : CronJob)
    (found : s.jobs.lookup event.1 = some job) :
    (fire fromStr upcoming now (s,exhausted) event).1.published = s.published ++ [event] ∧
      (fire fromStr upcoming now (s,exhausted) event).1.store = updateLastFired s.store event.1 (timestamp now) ∧
      (∀ k, (fire fromStr upcoming now (s,exhausted) event).1.jobs.lookup k =
        if k = event.1 then some (advanced fromStr upcoming now job) else s.jobs.lookup k) ∧
      (fire fromStr upcoming now (s,exhausted) event).2 =
        if laterFire fromStr upcoming now job = none then exhausted ++ [event.1] else exhausted := by
  have kept (k : String) : s.jobs.lookup k = if k = event.1 then some job else s.jobs.lookup k := by
    split
    · rename_i same
      rw [same,found]
    · rfl
  cases parsed : fromStr job.expr with
  | error reason =>
    simp only [fire,advanced,laterFire,found,parsed]
    exact ⟨trivial,trivial,kept,rfl⟩
  | ok schedule =>
    cases next : upcoming schedule now with
    | none =>
      simp only [fire,advanced,laterFire,found,parsed,next]
      exact ⟨trivial,trivial,kept,rfl⟩
    | some t =>
      simp only [fire,advanced,laterFire,found,parsed,next]
      exact ⟨trivial,trivial,fun k => lookup_insert_if s.jobs event.1 k _,rfl⟩

/-- The firing loop over events of different jobs. -/
theorem fires_eq (now : Nat) (events : List (String × Option String)) (s : Scheduler) (exhausted : List String)
    (distinct : (events.map Prod.fst).Nodup) (live : ∀ event ∈ events, ∃ job, s.jobs.lookup event.1 = some job) :
    (events.foldl (fire fromStr upcoming now) (s,exhausted)).1.published = s.published ++ events ∧
      (∀ k, (events.foldl (fire fromStr upcoming now) (s,exhausted)).1.store.lookup k =
        if k ∈ events.map Prod.fst then (s.store.lookup k).map (counted now) else s.store.lookup k) ∧
      (∀ k, (events.foldl (fire fromStr upcoming now) (s,exhausted)).1.jobs.lookup k =
        if k ∈ events.map Prod.fst then (s.jobs.lookup k).map (advanced fromStr upcoming now) else s.jobs.lookup k) ∧
      ∀ k, k ∈ (events.foldl (fire fromStr upcoming now) (s,exhausted)).2 ↔
        k ∈ exhausted ∨ k ∈ events.map Prod.fst ∧
          ∃ job, s.jobs.lookup k = some job ∧ laterFire fromStr upcoming now job = none := by
  induction events generalizing s exhausted with
  | nil => simp
  | cons event rest ih =>
    obtain ⟨fresh,apart⟩ := List.nodup_cons.mp distinct
    obtain ⟨job,found⟩ := live event List.mem_cons_self
    obtain ⟨published,store,jobs,ended⟩ := fire_eq fromStr upcoming now s exhausted event job found
    have other (k : String) (member : k ∈ rest.map Prod.fst) : k ≠ event.1 := fun same => fresh (same ▸ member)
    have still (later : String × Option String) (member : later ∈ rest) :
        ∃ job, (fire fromStr upcoming now (s,exhausted) event).1.jobs.lookup later.1 = some job := by
      rw [jobs,if_neg (other later.1 (List.mem_map_of_mem member))]
      exact live later (List.mem_cons_of_mem event member)
    obtain ⟨publishedAll,storeAll,jobsAll,endedAll⟩ := ih _ _ apart still
    rw [List.foldl_cons]
    refine ⟨?_,fun k => ?_,fun k => ?_,fun k => ?_⟩
    · rw [publishedAll,published,List.append_assoc]
      rfl
    · rw [storeAll,store,lookup_updated,List.map_cons]
      by_cases first : k = event.1
      · subst first
        rw [if_neg fresh,if_pos rfl,if_pos List.mem_cons_self]
      · by_cases later : k ∈ rest.map Prod.fst
        · simp [first,later]
        · simp [first,later]
    · rw [jobsAll,jobs,List.map_cons]
      by_cases first : k = event.1
      · subst first
        rw [if_neg fresh,if_pos rfl,if_pos List.mem_cons_self,found,Option.map_some]
      · by_cases later : k ∈ rest.map Prod.fst
        · simp [first,later]
        · simp [first,later]
    · rw [endedAll,ended,jobs,List.map_cons]
      by_cases first : k = event.1
      · subst first
        by_cases none : laterFire fromStr upcoming now job = none
        · simp [fresh,none,found]
        · simp [fresh,none,found]
      · have same : k ∈ (if laterFire fromStr upcoming now job = none then exhausted ++ [event.1] else exhausted) ↔
            k ∈ exhausted := by
          split <;> simp [first]
        rw [same,if_neg first,List.mem_cons]
        simp [first]

theorem drops_eq (exhausted : List String) (s : Scheduler) :
    (exhausted.foldl dropJob s).published = s.published ∧
      (∀ k, (exhausted.foldl dropJob s).store.lookup k = if k ∈ exhausted then none else s.store.lookup k) ∧
      ∀ k, (exhausted.foldl dropJob s).jobs.lookup k = if k ∈ exhausted then none else s.jobs.lookup k := by
  induction exhausted generalizing s with
  | nil => simp
  | cons id rest ih =>
    obtain ⟨published,store,jobs⟩ := ih (dropJob s id)
    rw [List.foldl_cons]
    refine ⟨published,fun k => ?_,fun k => ?_⟩
    · rw [store,dropJob,lookup_erase_if]
      by_cases first : k = id <;> simp [first]
    · rw [jobs,dropJob,lookup_erase_if]
      by_cases first : k = id <;> simp [first]

end Ticks

theorem toFire_fst (now : Nat) (s : Scheduler) : (toFire now s).map Prod.fst = (due now s).map Prod.fst := by
  unfold toFire due
  rw [List.map_map,List.map_map]
  rfl

theorem due_distinct (now : Nat) (s : Scheduler) : ((due now s).map Prod.fst).Nodup := by
  have keys : ((s.jobs.entries.filter (fun entry => entry.2.enabled && decide (entry.2.nextFire ≤ now))).map
      Sigma.fst).Nodup := List.Nodup.sublist (List.filter_sublist.map Sigma.fst) s.jobs.nodupKeys
  rw [due,List.map_map]
  exact keys

def ready (now : Nat) (job : CronJob) : Bool := job.enabled && decide (job.nextFire ≤ now)

theorem ready_iff (now : Nat) (job : CronJob) : ready now job = true ↔ job.enabled = true ∧ job.nextFire ≤ now := by
  rw [ready,Bool.and_eq_true,decide_eq_true_eq]

theorem mem_due (now : Nat) (s : Scheduler) (id : String) (t : Nat) :
    (id,t) ∈ due now s ↔ ∃ job, s.jobs.lookup id = some job ∧ ready now job = true ∧ job.nextFire = t :=
  mem_picked s.jobs (ready now) CronJob.nextFire id t

theorem mem_toFire (now : Nat) (s : Scheduler) (id : String) (target : Option String) :
    (id,target) ∈ toFire now s ↔
      ∃ job, s.jobs.lookup id = some job ∧ ready now job = true ∧ job.targetAgent = target :=
  mem_picked s.jobs (ready now) CronJob.targetAgent id target

section Runs
variable {Schedule : Type} (fromStr : String → Except String Schedule) (upcoming : Schedule → Nat → Option Nat)
  (occurs : Schedule → Nat → Prop)

theorem mem_toFire_fst (now : Nat) (s : Scheduler) (k : String) :
    k ∈ (toFire now s).map Prod.fst ↔ ∃ job, s.jobs.lookup k = some job ∧ ready now job = true := by
  rw [List.mem_map]
  constructor
  · rintro ⟨⟨id,target⟩,member,rfl⟩
    obtain ⟨job,found,now,-⟩ := (mem_toFire now s id target).mp member
    exact ⟨job,found,now⟩
  · rintro ⟨job,found,due⟩
    exact ⟨(k,job.targetAgent),(mem_toFire now s k job.targetAgent).mpr ⟨job,found,due,rfl⟩,rfl⟩

/-- A tick on the whole: each job that is due is advanced to its next occurrence, or goes with
its row if there is none. -/
theorem tick_eq (now : Nat) (s : Scheduler) :
    (tick fromStr upcoming now s).published = s.published ++ toFire now s ∧
      (∀ k, (tick fromStr upcoming now s).jobs.lookup k = (s.jobs.lookup k).bind (fun job =>
        if ready now job then (laterFire fromStr upcoming now job).map (fun t => { job with nextFire := t }) else some job)) ∧
      ∀ k record, (tick fromStr upcoming now s).store.lookup k = some record →
        ∃ before, s.store.lookup k = some before ∧
          record = if k ∈ (toFire now s).map Prod.fst then counted now before else before := by
  have distinct : ((toFire now s).map Prod.fst).Nodup := toFire_fst now s ▸ due_distinct now s
  have listed := mem_toFire_fst now s
  have live : ∀ event ∈ toFire now s, ∃ job, s.jobs.lookup event.1 = some job := by
    intro event member
    obtain ⟨job,found,-⟩ := (listed event.1).mp (List.mem_map_of_mem member)
    exact ⟨job,found⟩
  obtain ⟨published,store,jobs,ended⟩ := fires_eq fromStr upcoming now (toFire now s) s [] distinct live
  unfold tick
  cases fired : (toFire now s).foldl (fire fromStr upcoming now) (s,[]) with
  | mk after exhausted =>
    rw [fired] at published store jobs ended
    dsimp only at published store jobs ended ⊢
    obtain ⟨same,rows,rest⟩ := drops_eq exhausted after
    refine ⟨same.trans published,fun k => ?_,fun k record found => ?_⟩
    · rw [rest,jobs]
      cases found : s.jobs.lookup k with
      | none =>
        simp
      | some job =>
        rw [Option.bind_some]
        by_cases due : ready now job = true
        · have inside : k ∈ (toFire now s).map Prod.fst := (listed k).mpr ⟨job,found,due⟩
          rw [if_pos due,if_pos inside,Option.map_some]
          cases later : laterFire fromStr upcoming now job with
          | none =>
            rw [if_pos ((ended k).mpr (Or.inr ⟨inside,job,found,later⟩))]
            rfl
          | some t =>
            rw [if_neg,advanced,later]
            · rfl
            · rw [ended]
              rintro (never | ⟨-,other,same,none⟩)
              · cases never
              · rw [found] at same
                cases same
                rw [later] at none
                cases none
        · have outside : k ∉ (toFire now s).map Prod.fst := by
            rw [listed]
            rintro ⟨other,same,ready⟩
            rw [found] at same
            cases same
            exact due ready
          rw [if_neg due,if_neg outside,if_neg]
          rw [ended]
          rintro (never | ⟨inside,-⟩)
          · cases never
          · exact outside inside
    · rw [rows] at found
      split at found
      · cases found
      · rw [store] at found
        split at found
        · rename_i inside
          obtain ⟨before,there,same⟩ := Option.map_eq_some_iff.mp found
          exact ⟨before,there,by rw [if_pos inside,same]⟩
        · rename_i outside
          exact ⟨record,found,by rw [if_neg outside]⟩

/-- Each job waits for its first occurrence after some reading of the clock, by which every
occurrence fired for its id had passed. -/
structure Sound (l : Ledger) : Prop where
  jobs : ∀ id job, l.life.scheduler.jobs.lookup id = some job → job.enabled = true ∧ ∃ schedule since,
    fromStr job.expr = .ok schedule ∧ since ≤ l.clock ∧ upcoming schedule since = some job.nextFire ∧
      ∀ t, (id,t) ∈ l.fired → t ≤ since
  past : ∀ id t, (id,t) ∈ l.fired → t ≤ l.clock
  saved : ∀ id, l.saved id ≤ l.life.scheduler.published.length
  accounted : Accounted l

theorem opened_sound : Sound fromStr upcoming opened where
  jobs := fun id job found => by cases found
  past := fun id t member => by cases member
  saved := fun id => Nat.le_refl 0
  accounted := ⟨List.nodup_nil,fun id record found => by cases found⟩

theorem sound_add (l : Ledger) (sound : Sound fromStr upcoming l) (now : Nat) (expr triggerId : String)
    (target : Option String) (later : l.clock ≤ now) :
    Sound fromStr upcoming (step fromStr upcoming l (.add now expr triggerId target)) := by
  have past : ∀ id t, (id,t) ∈ l.fired → t ≤ now := fun id t member => Nat.le_trans (sound.past id t member) later
  have waiting (id : String) (job : CronJob) (found : l.life.scheduler.jobs.lookup id = some job) :
      job.enabled = true ∧ ∃ schedule since, fromStr job.expr = .ok schedule ∧ since ≤ now ∧
        upcoming schedule since = some job.nextFire ∧ ∀ t, (id,t) ∈ l.fired → t ≤ since := by
    obtain ⟨enabled,schedule,since,parsed,before,next,fired⟩ := sound.jobs id job found
    exact ⟨enabled,schedule,since,parsed,Nat.le_trans before later,next,fired⟩
  rcases add_spec fromStr upcoming now l.life.scheduler expr triggerId target with
    ⟨error,failed⟩ | ⟨schedule,nextFire,parsed,next,added⟩
  · simp only [step,Cron.step,failed,reading,Option.getD_some]
    exact ⟨waiting,past,sound.saved,sound.accounted.once,sound.accounted.counted⟩
  · simp only [step,Cron.step,added,reading,Option.getD_some]
    refine ⟨?_,past,?_,sound.accounted.once,?_⟩
    · intro id job found
      rcases lookup_of_insert _ triggerId id _ job found with ⟨rfl,rfl⟩ | ⟨_,found⟩
      · exact ⟨rfl,schedule,now,parsed,Nat.le_refl now,next,past id⟩
      · exact waiting id job found
    · intro id
      change Function.update l.saved triggerId l.life.scheduler.published.length id ≤ l.life.scheduler.published.length
      by_cases same : id = triggerId
      · rw [same,Function.update_self]
      · rw [Function.update_of_ne same]
        exact sound.saved id
    · intro id record found
      rcases lookup_of_insert _ triggerId id _ record found with ⟨rfl,rfl⟩ | ⟨other,found⟩
      · simp [firings]
      · have counted := sound.accounted.counted id record found
        simp only [firings,Function.update_of_ne other]
        exact counted

theorem sound_remove (l : Ledger) (sound : Sound fromStr upcoming l) (triggerId : String) :
    Sound fromStr upcoming (step fromStr upcoming l (.remove triggerId)) := by
  by_cases present : triggerId ∈ l.life.scheduler.jobs
  · simp only [step,Cron.step,remove,present,if_true,reading,Option.getD_none]
    refine ⟨?_,sound.past,sound.saved,sound.accounted.once,?_⟩
    · intro id job found
      exact sound.jobs id job (lookup_of_erase _ triggerId id job found).2
    · intro id record found
      exact sound.accounted.counted id record (lookup_of_erase _ triggerId id record found).2
  · have unchanged : (remove l.life.scheduler triggerId).1 = l.life.scheduler := remove_absent _ triggerId present
    simp only [step,Cron.step,unchanged,reading,Option.getD_none]
    exact ⟨sound.jobs,sound.past,sound.saved,sound.accounted.once,sound.accounted.counted⟩

theorem restored_waits (now : Nat) (triggerId : String) (record : TriggerRecord) (job : CronJob)
    (made : restored fromStr upcoming now triggerId record = some job) :
    job.enabled = true ∧ ∃ schedule, fromStr job.expr = .ok schedule ∧ upcoming schedule now = some job.nextFire := by
  unfold restored at made
  split at made
  · cases made
  · rename_i usable
    split at made
    · cases made
    · rename_i expr read
      cases parsed : fromStr expr with
      | error reason =>
        rw [parsed] at made
        cases made
      | ok schedule =>
        rw [parsed] at made
        dsimp only at made
        cases next : upcoming schedule now with
        | none =>
          rw [next] at made
          cases made
        | some t =>
          rw [next] at made
          cases made
          have enabled : record.enabled = true := by
            by_contra disabled
            exact usable (by simp [disabled])
          exact ⟨enabled,schedule,parsed,next⟩

theorem sound_restore (l : Ledger) (sound : Sound fromStr upcoming l) (now : Nat) (later : l.clock ≤ now) :
    Sound fromStr upcoming (step fromStr upcoming l (.restore now)) := by
  have past : ∀ id t, (id,t) ∈ l.fired → t ≤ now := fun id t member => Nat.le_trans (sound.past id t member) later
  simp only [step,Cron.step,restoreFromStore,reading,Option.getD_some]
  refine ⟨?_,past,sound.saved,sound.accounted.once,sound.accounted.counted⟩
  intro id job found
  dsimp only at found
  rw [lookup_foldl_fill _ l.life.scheduler.store.entries l.life.scheduler.store.nodupKeys,Option.or_eq_some_iff] at found
  rcases found with found | ⟨-,made⟩
  · obtain ⟨enabled,schedule,since,parsed,before,next,fired⟩ := sound.jobs id job found
    exact ⟨enabled,schedule,since,parsed,Nat.le_trans before later,next,fired⟩
  · obtain ⟨record,-,made⟩ := Option.bind_eq_some_iff.mp made
    obtain ⟨enabled,schedule,parsed,next⟩ := restored_waits fromStr upcoming now id record job made
    exact ⟨enabled,schedule,now,parsed,Nat.le_refl now,next,past id⟩

theorem countP_fst (events : List (String × Option String)) (distinct : (events.map Prod.fst).Nodup) (id : String) :
    events.countP (fun event => event.1 = id) = if id ∈ events.map Prod.fst then 1 else 0 := by
  have counts : events.countP (fun event => event.1 = id) = (events.map Prod.fst).count id := by
    rw [List.count,List.countP_map]
    apply List.countP_congr
    intro event _
    simp
  rw [counts]
  split
  · exact List.count_eq_one_of_mem distinct ‹_›
  · exact List.count_eq_zero_of_not_mem ‹_›

variable (crate : FirstAfter upcoming occurs)
include crate

theorem sound_tick (l : Ledger) (sound : Sound fromStr upcoming l) (now : Nat) (later : l.clock ≤ now) :
    Sound fromStr upcoming (step fromStr upcoming l (.tick now)) := by
  obtain ⟨published,jobs,rows⟩ := tick_eq fromStr upcoming now l.life.scheduler
  have distinct : ((toFire now l.life.scheduler).map Prod.fst).Nodup :=
    toFire_fst now l.life.scheduler ▸ due_distinct now l.life.scheduler
  have new (id : String) (t : Nat) (member : (id,t) ∈ due now l.life.scheduler) : t ≤ now ∧ (id,t) ∉ l.fired := by
    obtain ⟨job,found,waits,rfl⟩ := (mem_due now l.life.scheduler id t).mp member
    obtain ⟨-,schedule,since,-,-,next,fired⟩ := sound.jobs id job found
    refine ⟨((ready_iff now job).mp waits).2,fun again => ?_⟩
    exact absurd (fired job.nextFire again) (Nat.not_le_of_lt ((crate schedule since job.nextFire).mp next).1.2)
  have past : ∀ id t, (id,t) ∈ l.fired ++ due now l.life.scheduler → t ≤ now := by
    intro id t member
    rcases List.mem_append.mp member with old | fresh
    · exact Nat.le_trans (sound.past id t old) later
    · exact (new id t fresh).1
  simp only [step,Cron.step,reading,Option.getD_some]
  refine ⟨?_,past,?_,?_,?_⟩
  · intro id job found
    dsimp only at found
    rw [jobs] at found
    obtain ⟨before,present,same⟩ := Option.bind_eq_some_iff.mp found
    obtain ⟨enabled,schedule,since,parsed,earlier,next,fired⟩ := sound.jobs id before present
    by_cases waits : ready now before = true
    · rw [if_pos waits] at same
      obtain ⟨t,first,rfl⟩ := Option.map_eq_some_iff.mp same
      rw [laterFire,parsed] at first
      exact ⟨enabled,schedule,now,parsed,Nat.le_refl now,first,past id⟩
    · rw [if_neg waits] at same
      obtain rfl := Option.some_inj.mp same
      refine ⟨enabled,schedule,since,parsed,Nat.le_trans earlier later,next,fun t member => ?_⟩
      rcases List.mem_append.mp member with old | fresh
      · exact fired t old
      · obtain ⟨other,there,due,-⟩ := (mem_due now l.life.scheduler id t).mp fresh
        rw [present] at there
        obtain rfl := Option.some_inj.mp there
        exact absurd due waits
  · intro id
    dsimp only
    rw [published,List.length_append]
    exact Nat.le_trans (sound.saved id) (Nat.le_add_right _ _)
  · refine List.nodup_append.mpr ⟨sound.accounted.once,List.Nodup.of_map Prod.fst (due_distinct now l.life.scheduler),?_⟩
    rintro ⟨id,t⟩ old other fresh rfl
    exact (new id t fresh).2 old
  · intro id record found
    obtain ⟨before,present,rfl⟩ := rows id record found
    have known := sound.accounted.counted id before present
    simp only [firings,published,List.drop_append_of_le_length (sound.saved id),List.countP_append]
    unfold firings at known
    rw [countP_fst _ distinct id,← known]
    split <;> rfl

theorem step_sound (l : Ledger) (i : Step) (sound : Sound fromStr upcoming l) (ordered : Ordered l i) :
    Sound fromStr upcoming (step fromStr upcoming l i) := by
  cases i with
  | add now expr triggerId target => exact sound_add fromStr upcoming l sound now expr triggerId target (ordered now rfl)
  | remove triggerId => exact sound_remove fromStr upcoming l sound triggerId
  | tick now => exact sound_tick fromStr upcoming occurs crate l sound now (ordered now rfl)
  | restart =>
    refine ⟨fun id job found => ?_,sound.past,sound.saved,sound.accounted.once,sound.accounted.counted⟩
    cases found
  | restore now => exact sound_restore fromStr upcoming l sound now (ordered now rfl)

/-- The first occurrence after a reading is the first after any later one it has not passed. -/
theorem first_later (schedule : Schedule) (since now t : Nat) (next : upcoming schedule since = some t)
    (earlier : since ≤ now) (ahead : now < t) : IsLeast {u | occurs schedule u ∧ now < u} t := by
  obtain ⟨⟨happens,-⟩,least⟩ := (crate schedule since t).mp next
  exact ⟨⟨happens,ahead⟩,fun u after => least ⟨after.1,Nat.lt_of_le_of_lt earlier after.2⟩⟩

theorem none_after (schedule : Schedule) (now : Nat) (none : upcoming schedule now = none) (t : Nat)
    (happens : occurs schedule t) : t ≤ now := by
  by_contra ahead
  obtain ⟨first,member,least⟩ := WellFounded.has_min Nat.lt_wfRel.wf {u | occurs schedule u ∧ now < u}
    ⟨t,happens,Nat.lt_of_not_le ahead⟩
  have given := (crate schedule now first).mpr ⟨member,fun u after => Nat.le_of_not_lt (least u after)⟩
  rw [none] at given
  cases given

theorem tick_fires (l : Ledger) (sound : Sound fromStr upcoming l) (now : Nat) (later : l.clock ≤ now) :
    Fires fromStr occurs now l.life.scheduler (tick fromStr upcoming now l.life.scheduler) := by
  obtain ⟨published,jobs,-⟩ := tick_eq fromStr upcoming now l.life.scheduler
  refine ⟨⟨_,published,toFire_fst now l.life.scheduler ▸ due_distinct now l.life.scheduler,?_⟩,?_,?_⟩
  · intro id target
    rw [mem_toFire]
    simp only [ready_iff,and_assoc]
  · intro id job found
    rw [jobs] at found
    obtain ⟨before,present,same⟩ := Option.bind_eq_some_iff.mp found
    obtain ⟨enabled,schedule,since,parsed,earlier,next,-⟩ := sound.jobs id before present
    by_cases waits : ready now before = true
    · rw [if_pos waits] at same
      obtain ⟨t,first,rfl⟩ := Option.map_eq_some_iff.mp same
      rw [laterFire,parsed] at first
      exact ⟨schedule,parsed,(crate schedule now t).mp first⟩
    · rw [if_neg waits] at same
      obtain rfl := Option.some_inj.mp same
      have ahead : now < before.nextFire := by
        by_contra passed
        exact waits ((ready_iff now before).mpr ⟨enabled,Nat.le_of_not_lt passed⟩)
      exact ⟨schedule,parsed,first_later upcoming occurs crate schedule since now _ next (Nat.le_trans earlier later) ahead⟩
  · intro id job present gone
    rw [jobs,present,Option.bind_some] at gone
    split at gone
    · rename_i waits
      refine ⟨((ready_iff now job).mp waits).2,fun schedule parsed t happens => ?_⟩
      have exhausted := Option.map_eq_none_iff.mp gone
      rw [laterFire,parsed] at exhausted
      exact none_after upcoming occurs crate schedule now exhausted t happens
    · cases gone

/-- In a run whose clock does not step back, every tick fires the jobs that are due and leaves
the others waiting for their first occurrence after it, no occurrence is fired twice, and every
row counts the events of its job since it was saved. -/
theorem ticks_fire_due (steps : List Step) (ordered : Along (step fromStr upcoming) Ordered opened steps) :
    Along (step fromStr upcoming) (TickFires fromStr upcoming occurs) opened steps ∧
      Always (step fromStr upcoming) Accounted opened steps := by
  have start := opened_sound fromStr upcoming
  have kept := step_sound fromStr upcoming occurs crate
  constructor
  · refine along_of_along _ _ _ (Sound fromStr upcoming) kept ?_ opened steps start ordered
    intro l i sound inOrder
    cases i with
    | tick now => exact tick_fires fromStr upcoming occurs crate l sound now (inOrder now rfl)
    | _ => trivial
  · exact always_mono _ _ _ (fun _ sound => sound.accounted) _ _ (always_of_along _ _ _ kept _ _ start ordered)

end Runs

def FullMinute (_ : Unit) (t : Nat) : Prop := 60 * nanos ∣ t

theorem nextMinute_first : FirstAfter nextMinute FullMinute := by
  intro schedule now t
  have positive : 0 < 60 * nanos := by decide
  have least : IsLeast {u | FullMinute schedule u ∧ now < u} ((now / (60 * nanos) + 1) * (60 * nanos)) := by
    refine ⟨⟨Nat.dvd_mul_left _ _,Nat.lt_mul_of_div_lt (Nat.lt_succ_self _) positive⟩,?_⟩
    rintro u ⟨⟨k,rfl⟩,after⟩
    rw [Nat.mul_comm (60 * nanos) k] at after ⊢
    exact Nat.mul_le_mul_right _ ((Nat.div_lt_iff_lt_mul positive).mpr after)
  constructor
  · intro given
    rw [← Option.some_inj.mp given]
    exact least
  · intro first
    rw [first.unique least]
    rfl

/-- A report every minute; the second tick comes late. -/
def minutes : List Step :=
  [.add 0 "0 * * * * *" "report" none,.tick (60 * nanos),.tick (200 * nanos),.remove "report",.tick (300 * nanos)]

theorem ticks_fire_minutes :
    Along (step everyMinute nextMinute) (TickFires everyMinute nextMinute FullMinute) opened minutes ∧
      Always (step everyMinute nextMinute) Accounted opened minutes :=
  ticks_fire_due everyMinute nextMinute FullMinute nextMinute_first minutes (by decide)

end ClawKernel.Runtime.Ticks
