import Mathlib.Data.List.Induction
import ClawKernel.Lib.Runs
import ClawKernel.Lib.Tables

/-! Ids seen within a window of time: a table of the moments at which ids were first seen,
swept of the old ones at every sighting.
-/
namespace ClawKernel.Lib.Window
open Lib.Runs Lib.Tables

variable {κ : Type*} [DecidableEq κ]

/-- `retain` of the ids seen less than a window ago. -/
def recent (window now : ℕ) (seen : Table κ ℕ) : Table κ ℕ :=
  seen.entries.foldl (fun rest entry => if now - entry.2 < window then rest else rest.erase entry.1) seen

/-- Whether the id was seen within the window, and the table afterwards. -/
def observe (window now : ℕ) (seen : Table κ ℕ) (id : κ) : Bool × Table κ ℕ :=
  if id ∈ recent window now seen then (true,recent window now seen)
  else (false,(recent window now seen).insert id now)

/-- Whether the table, which need not be swept, has the id from within the window. -/
def sighted (window now : ℕ) (seen : Table κ ℕ) (id : κ) : Bool := (seen.lookup id).any (fun t => decide (now - t < window))

/-- The table holds, of the first sightings, at least those within the window. -/
structure Tracks (window now : ℕ) (seen : Table κ ℕ) (first : κ → ℕ → Prop) : Prop where
  noted : ∀ id t, seen.lookup id = some t → first id t
  kept : ∀ id t, first id t → now - t < window → seen.lookup id = some t

theorem lookup_recent (window now : ℕ) (seen : Table κ ℕ) (id : κ) :
    (recent window now seen).lookup id = (seen.lookup id).filter (fun t => decide (now - t < window)) :=
  lookup_retain (fun _ t => now - t < window) seen id

theorem lookup_recent_iff (window now : ℕ) (seen : Table κ ℕ) (id : κ) (t : ℕ) :
    (recent window now seen).lookup id = some t ↔ seen.lookup id = some t ∧ now - t < window := by
  rw [lookup_recent,Option.filter_eq_some_iff,decide_eq_true_iff]

theorem observe_seen (window now : ℕ) (seen : Table κ ℕ) (id : κ) (present : id ∈ recent window now seen) :
    observe window now seen id = (true,recent window now seen) :=
  if_pos present

theorem observe_new (window now : ℕ) (seen : Table κ ℕ) (id : κ) (absent : id ∉ recent window now seen) :
    observe window now seen id = (false,(recent window now seen).insert id now) :=
  if_neg absent

theorem tracks_empty (window now : ℕ) : Tracks window now (∅ : Table κ ℕ) (fun _ _ => False) where
  noted := by
    intro id t found
    rw [AList.lookup_empty] at found
    cases found
  kept := fun _ _ never => never.elim

section Tracking
variable (window now : ℕ) (seen : Table κ ℕ) (first : κ → ℕ → Prop) (tracks : Tracks window now seen first)
include tracks

theorem tracks_later (later : ℕ) (elapsed : now ≤ later) : Tracks window later seen first where
  noted := tracks.noted
  kept := by
    intro id t sighted within
    apply tracks.kept id t sighted
    exact Nat.lt_of_le_of_lt (Nat.sub_le_sub_right elapsed t) within

theorem tracks_congr (same : κ → ℕ → Prop) (agrees : ∀ id t, same id t ↔ first id t) :
    Tracks window now seen same where
  noted := fun id t found => (agrees id t).mpr (tracks.noted id t found)
  kept := fun id t sighted => tracks.kept id t ((agrees id t).mp sighted)

theorem sighted_iff (id : κ) : sighted window now seen id = true ↔ ∃ t, first id t ∧ now - t < window := by
  rw [sighted,Option.any_eq_true]
  constructor
  · rintro ⟨t,found,within⟩
    exact ⟨t,tracks.noted id t found,of_decide_eq_true within⟩
  · rintro ⟨t,earlier,within⟩
    exact ⟨t,tracks.kept id t earlier within,decide_eq_true within⟩

/-- An id that was not seen within the window is noted. -/
theorem tracks_insert (id : κ) (unseen : ¬∃ t, first id t ∧ now - t < window) :
    Tracks window now (seen.insert id now) (fun other t => first other t ∨ other = id ∧ t = now) where
  noted := by
    intro other t found
    rcases lookup_of_insert seen id other now t found with new | ⟨_,earlier⟩
    · exact Or.inr new
    · exact Or.inl (tracks.noted other t earlier)
  kept := by
    intro other t sighting within
    rw [lookup_insert_if]
    -- an earlier first sighting of the same id would be within the window still
    rcases sighting with earlier | ⟨same,moment⟩
    · rw [if_neg]
      · exact tracks.kept other t earlier within
      · intro same
        rw [same] at earlier
        exact unseen ⟨t,earlier,within⟩
    · rw [if_pos same,moment]

theorem mem_recent_iff (id : κ) : id ∈ recent window now seen ↔ ∃ t, first id t ∧ now - t < window := by
  rw [← AList.lookup_isSome,Option.isSome_iff_exists]
  constructor
  · rintro ⟨t,found⟩
    obtain ⟨there,within⟩ := (lookup_recent_iff window now seen id t).mp found
    exact ⟨t,tracks.noted id t there,within⟩
  · rintro ⟨t,sighted,within⟩
    exact ⟨t,(lookup_recent_iff window now seen id t).mpr ⟨tracks.kept id t sighted within,within⟩⟩

/-- An id counts as seen exactly when it was first seen less than a window ago. -/
theorem observe_iff (id : κ) : (observe window now seen id).1 = true ↔ ∃ t, first id t ∧ now - t < window := by
  rw [← mem_recent_iff window now seen first tracks id]
  by_cases present : id ∈ recent window now seen
  · rw [observe_seen window now seen id present]
    exact ⟨fun _ => present,fun _ => rfl⟩
  · rw [observe_new window now seen id present]
    exact ⟨fun false => absurd false Bool.false_ne_true,fun there => absurd there present⟩

theorem tracks_recent : Tracks window now (recent window now seen) first where
  noted := fun id t found => tracks.noted id t ((lookup_recent_iff window now seen id t).mp found).1
  kept := fun id t sighted within =>
    (lookup_recent_iff window now seen id t).mpr ⟨tracks.kept id t sighted within,within⟩

/-- A sighting is added to the first ones exactly if the id does not count as seen. -/
theorem tracks_observe (id : κ) :
    Tracks window now (observe window now seen id).2
      (fun other t => first other t ∨ (observe window now seen id).1 = false ∧ other = id ∧ t = now) := by
  have swept := tracks_recent window now seen first tracks
  by_cases present : id ∈ recent window now seen
  · rw [observe_seen window now seen id present]
    apply tracks_congr window now _ first swept
    exact fun other t => or_iff_left (fun new => absurd new.1.symm Bool.false_ne_true)
  · rw [observe_new window now seen id present]
    have unseen := mt (mem_recent_iff window now seen first tracks id).mpr present
    apply tracks_congr window now _ _ (tracks_insert window now _ first swept id unseen)
    exact fun other t => or_congr_right (and_iff_right rfl)

end Tracking

/-! A system that carries such a table: a step sights an id, or leaves the table alone, and
its clock does not run back. -/
section Sightings
variable {σ : Type*} {ι : Type*} (step : σ → ι → σ) (window : ℕ) (now : σ → ℕ) (seen : σ → Table κ ℕ)
  (sighting : σ → ι → Option κ)
  (clock : ∀ s i, now s ≤ now (step s i))
  (sights : ∀ s i id, sighting s i = some id → seen (step s i) = (observe window (now s) (seen s) id).2)
  (looksAway : ∀ s i, sighting s i = none → seen (step s i) = seen s)

/-- The step sights the id, which does not count as seen, at that time. -/
def FirstAt (id : κ) (t : ℕ) (s : σ) (i : ι) : Prop :=
  sighting s i = some id ∧ (observe window (now s) (seen s) id).1 = false ∧ now s = t

include clock sights looksAway

theorem run_tracks (start : σ) (steps : List ι) (empty : seen start = ∅) :
    Tracks window (now (run step start steps)) (seen (run step start steps))
      (fun id t => Occurred step (FirstAt window now seen sighting id t) start steps) := by
  induction steps using List.reverseRecOn with
  | nil =>
    change Tracks window (now start) (seen start) (fun _ _ => False)
    rw [empty]
    exact tracks_empty window (now start)
  | append_singleton steps i ih =>
    have last : run step start (steps ++ [i]) = step (run step start steps) i := run_append step start steps [i]
    rw [last]
    apply tracks_later window (now (run step start steps)) _ _ _ _ (clock _ i)
    cases sighted : sighting (run step start steps) i with
    | none =>
      rw [looksAway _ i sighted]
      apply tracks_congr window _ _ _ ih
      intro id t
      rw [occurred_concat]
      apply or_iff_left
      rintro ⟨same,_⟩
      rw [sighted] at same
      cases same
    | some held =>
      rw [sights _ i held sighted]
      apply tracks_congr window _ _ _ (tracks_observe window _ _ _ ih held)
      intro id t
      rw [occurred_concat]
      apply or_congr_right
      constructor
      · rintro ⟨same,new,moment⟩
        rw [sighted] at same
        cases same
        exact ⟨new,rfl,moment.symm⟩
      · rintro ⟨new,same,moment⟩
        rw [same]
        exact ⟨sighted,new,moment.symm⟩

/-- After any run, an id counts as seen exactly if a step less than a window ago sighted it
when it did not count as seen. -/
theorem run_observe_iff (start : σ) (steps : List ι) (empty : seen start = ∅) (id : κ) :
    (observe window (now (run step start steps)) (seen (run step start steps)) id).1 = true ↔
      Occurred step (fun s i => sighting s i = some id ∧ (observe window (now s) (seen s) id).1 = false ∧
        now (run step start steps) - now s < window) start steps := by
  have tracks := run_tracks step window now seen sighting clock sights looksAway start steps empty
  rw [observe_iff window _ _ _ tracks id]
  have each (t : ℕ) :
      (Occurred step (FirstAt window now seen sighting id t) start steps ∧ now (run step start steps) - t < window) ↔
        Occurred step (fun s i => FirstAt window now seen sighting id t s i ∧
          now (run step start steps) - t < window) start steps :=
    occurred_and step _ _ start steps
  rw [exists_congr each,occurred_exists]
  apply occurred_congr
  intro s i
  constructor
  · rintro ⟨t,⟨same,new,moment⟩,within⟩
    rw [← moment] at within
    exact ⟨same,new,within⟩
  · rintro ⟨same,new,within⟩
    exact ⟨now s,⟨same,new,rfl⟩,within⟩

end Sightings

/-! Sightings at once: each reads the clock, then looks the id up, and then notes it with its
reading, and the table may change in between. `checking` has the id and the reading of those
under way, `passed` of those that have noted theirs. -/
section Concurrent
variable {α : Type*} {ν : Type*} (window : ℕ)

/-- Those that have passed with one id are a window apart, and no one under way is within a
window of what is gone from the table. -/
structure Guarded (clock : ℕ) (seen : α → Option ℕ) (checking passed : ν → Option (α × ℕ)) : Prop where
  readings : ∀ n id t, checking n = some (id,t) → t ≤ clock
  noted : ∀ n id t, passed n = some (id,t) → seen id = some t ∨
    t + window ≤ clock ∧ ∀ other later, checking other = some (id,later) → t + window ≤ later
  apart : ∀ n other id t t', n ≠ other → passed n = some (id,t) → passed other = some (id,t') →
    t + window ≤ t' ∨ t' + window ≤ t

variable {window} {clock : ℕ} {seen : α → Option ℕ} {checking passed : ν → Option (α × ℕ)}

/-- Time passes, and some give up. -/
theorem guarded_fewer (guarded : Guarded window clock seen checking passed) (later : ℕ)
    (checking' passed' : ν → Option (α × ℕ))
    (elapsed : clock ≤ later) (under : ∀ n each, checking' n = some each → checking n = some each)
    (past : ∀ n each, passed' n = some each → passed n = some each) : Guarded window later seen checking' passed' := by
  refine ⟨?_,?_,?_⟩
  · exact fun n id t reads => Nat.le_trans (guarded.readings n id t (under n _ reads)) elapsed
  · intro n id t has
    rcases guarded.noted n id t (past n _ has) with there | ⟨old,gone⟩
    · exact Or.inl there
    · exact Or.inr ⟨Nat.le_trans old elapsed,fun other reading reads => gone other reading (under other _ reads)⟩
  · exact fun n other id t t' distinct has has' => guarded.apart n other id t t' distinct (past n _ has) (past other _ has')

theorem guarded_read (guarded : Guarded window clock seen checking passed) (own : α) (checking' : ν → Option (α × ℕ))
    (reads : ∀ n each, checking' n = some each → checking n = some each ∨ each = (own,clock)) :
    Guarded window clock seen checking' passed := by
  refine ⟨?_,?_,guarded.apart⟩
  · intro n id t has
    rcases reads n _ has with before | same
    · exact guarded.readings n id t before
    · cases same
      exact Nat.le_refl _
  · intro n id t has
    refine (guarded.noted n id t has).imp_right (fun gone => ⟨gone.1,fun other later under => ?_⟩)
    rcases reads other _ under with before | same
    · exact gone.2 other later before
    · cases same
      exact gone.1

/-- What leaves the table is a window behind all who look for it. -/
theorem guarded_evict (guarded : Guarded window clock seen checking passed) (rest : α → Option ℕ)
    (drops : ∀ id t, seen id = some t → rest id = some t ∨
      t + window ≤ clock ∧ ∀ other later, checking other = some (id,later) → t + window ≤ later) :
    Guarded window clock rest checking passed := by
  refine ⟨guarded.readings,?_,guarded.apart⟩
  intro n id t has
  rcases guarded.noted n id t has with there | gone
  · exact drops id t there
  · exact Or.inr gone

/-- An id is noted where it is absent. -/
theorem guarded_insert (guarded : Guarded window clock seen checking passed) (own : ν) (id : α) (t : ℕ)
    (under : checking own = some (id,t)) (absent : seen id = none) (more : α → Option ℕ)
    (adds : more id = some t) (rest : ∀ other, other ≠ id → more other = seen other) (passed' : ν → Option (α × ℕ))
    (past : ∀ n each, passed' n = some each → n ≠ own ∧ passed n = some each ∨ n = own ∧ each = (id,t)) :
    Guarded window clock more checking passed' := by
  have gone : ∀ n since, passed n = some (id,since) → since + window ≤ t := by
    intro n since has
    rcases guarded.noted n id since has with there | gone
    · rw [absent] at there
      cases there
    · exact gone.2 own t under
  refine ⟨guarded.readings,?_,?_⟩
  · intro n other since has
    rcases past n _ has with ⟨_,before⟩ | ⟨_,same⟩
    · rcases guarded.noted n other since before with there | gone
      · rw [rest]
        · exact Or.inl there
        · rintro rfl
          rw [absent] at there
          cases there
      · exact Or.inr gone
    · cases same
      exact Or.inl adds
  · intro n other same since since' distinct has has'
    rcases past n _ has with ⟨_,before⟩ | ⟨mine,now⟩
    · rcases past other _ has' with ⟨_,before'⟩ | ⟨_,now'⟩
      · exact guarded.apart n other same since since' distinct before before'
      · cases now'
        exact Or.inl (gone n since before)
    · cases now
      rcases past other _ has' with ⟨_,before'⟩ | ⟨mine',_⟩
      · exact Or.inr (gone other since' before')
      · exact absurd (mine.trans mine'.symm) distinct

theorem guarded_empty (clock : ℕ) (seen : α → Option ℕ) (checking passed : ν → Option (α × ℕ)) (idle : ∀ n, checking n = none)
    (fresh : ∀ n, passed n = none) : Guarded window clock seen checking passed := by
  refine ⟨?_,?_,?_⟩
  · intro n id t reads
    rw [idle] at reads
    cases reads
  · intro n id t has
    rw [fresh] at has
    cases has
  · intro n other id t t' _ has
    rw [fresh] at has
    cases has

end Concurrent

end ClawKernel.Lib.Window
