import Mathlib.Data.List.Basic
import Mathlib.Order.Basic

/-! Runs of a step function, and conditions on the steps a run takes.
A condition is read in the state before its step, so that an invariant kept by
every step that meets it holds in every state such a run reaches.
-/
namespace ClawKernel.Lib.Runs

variable {σ : Type*} {ι : Type*}

def run (step : σ → ι → σ) (start : σ) (steps : List ι) : σ :=
  steps.foldl step start

def Along (step : σ → ι → σ) (meets : σ → ι → Prop) : σ → List ι → Prop
  | _, [] => True
  | s, i :: rest => meets s i ∧ Along step meets (step s i) rest

theorem along_with (step : σ → ι → σ) (meets : σ → ι → Prop) (allowed : ι → Prop) (s : σ) (steps : List ι)
    (inputs : ∀ i ∈ steps, allowed i) (along : Along step meets s steps) :
    Along step (fun t i => allowed i ∧ meets t i) s steps := by
  induction steps generalizing s with
  | nil => trivial
  | cons i rest ih =>
    obtain ⟨now,later⟩ := along
    exact ⟨⟨inputs i List.mem_cons_self,now⟩,
      ih (step s i) (fun j member => inputs j (List.mem_cons_of_mem i member)) later⟩

theorem along_inputs (step : σ → ι → σ) (allowed : ι → Prop) (s : σ) (steps : List ι) (inputs : ∀ i ∈ steps, allowed i) :
    Along step (fun _ i => allowed i) s steps := by
  induction steps generalizing s with
  | nil => trivial
  | cons i rest ih =>
    exact ⟨inputs i List.mem_cons_self,ih (step s i) (fun j member => inputs j (List.mem_cons_of_mem i member))⟩

instance alongDecidable (step : σ → ι → σ) (meets : σ → ι → Prop) [∀ s i, Decidable (meets s i)] :
    ∀ s steps, Decidable (Along step meets s steps)
  | _, [] => inferInstanceAs (Decidable True)
  | s, i :: rest =>
    have := alongDecidable step meets (step s i) rest
    inferInstanceAs (Decidable (meets s i ∧ Along step meets (step s i) rest))

/-- What holds at the start and is kept by every step that meets the condition
holds at the end of every run whose steps all meet it. -/
theorem run_invariant (step : σ → ι → σ) (meets : σ → ι → Prop) (holds : σ → Prop)
    (kept : ∀ s i, holds s → meets s i → holds (step s i))
    (start : σ) (steps : List ι) (initially : holds start)
    (along : Along step meets start steps) : holds (run step start steps) := by
  induction steps generalizing start with
  | nil => exact initially
  | cons i rest ih =>
    obtain ⟨now,later⟩ := along
    exact ih (step start i) (kept start i initially now) later

theorem run_always (step : σ → ι → σ) (holds : σ → Prop)
    (kept : ∀ s i, holds s → holds (step s i)) (start : σ) (steps : List ι)
    (initially : holds start) : holds (run step start steps) := by
  induction steps generalizing start with
  | nil => exact initially
  | cons i rest ih => exact ih (step start i) (kept start i initially)

theorem run_measure_le {β : Type*} [Preorder β] (step : σ → ι → σ) (measure : σ → β)
    (falls : ∀ s i, measure (step s i) ≤ measure s) (start : σ) (steps : List ι) :
    measure (run step start steps) ≤ measure start :=
  run_always step (fun s => measure s ≤ measure start) (fun s i bound => le_trans (falls s i) bound)
    start steps le_rfl

/-- A measure that no step raises and that every step missing the condition
lowers is lower at the end of a run in which some step misses it. -/
theorem run_measure_lt {β : Type*} [Preorder β] (step : σ → ι → σ) (meets : σ → ι → Prop) (measure : σ → β)
    (falls : ∀ s i, measure (step s i) ≤ measure s)
    (strict : ∀ s i, ¬meets s i → measure (step s i) < measure s)
    (start : σ) (steps : List ι) (missed : ¬Along step meets start steps) :
    measure (run step start steps) < measure start := by
  induction steps generalizing start with
  | nil => exact absurd trivial missed
  | cons i rest ih =>
    have tail := run_measure_le step measure falls (step start i) rest
    by_cases now : meets start i
    · have later : ¬Along step meets (step start i) rest := fun later => missed ⟨now,later⟩
      exact lt_of_lt_of_le (ih (step start i) later) (falls start i)
    · exact lt_of_le_of_lt tail (strict start i now)

/-- What holds at the start and in every state the run passes through. -/
def Always (step : σ → ι → σ) (holds : σ → Prop) : σ → List ι → Prop
  | s, [] => holds s
  | s, i :: rest => holds s ∧ Always step holds (step s i) rest

theorem always_start (step : σ → ι → σ) (holds : σ → Prop) (s : σ) (steps : List ι)
    (always : Always step holds s steps) : holds s := by
  cases steps with
  | nil => exact always
  | cons i rest => exact always.1

theorem always_end (step : σ → ι → σ) (holds : σ → Prop) (start : σ) (steps : List ι)
    (always : Always step holds start steps) : holds (run step start steps) := by
  induction steps generalizing start with
  | nil => exact always
  | cons i rest ih => exact ih (step start i) always.2

theorem always_mono (step : σ → ι → σ) (holds weaker : σ → Prop) (implied : ∀ s, holds s → weaker s)
    (start : σ) (steps : List ι) (always : Always step holds start steps) : Always step weaker start steps := by
  induction steps generalizing start with
  | nil => exact implied start always
  | cons i rest ih => exact ⟨implied start always.1,ih (step start i) always.2⟩

/-- What agrees under an invariant agrees along every run. -/
theorem always_congr (step : σ → ι → σ) (holds same inv : σ → Prop) (kept : ∀ s i, inv s → inv (step s i))
    (agrees : ∀ s, inv s → (holds s ↔ same s)) (start : σ) (steps : List ι) (initially : inv start) :
    Always step holds start steps ↔ Always step same start steps := by
  induction steps generalizing start with
  | nil => exact agrees start initially
  | cons i rest ih => exact and_congr (agrees start initially) (ih (step start i) (kept start i initially))

theorem always_of_along (step : σ → ι → σ) (meets : σ → ι → Prop) (holds : σ → Prop)
    (kept : ∀ s i, holds s → meets s i → holds (step s i)) (start : σ) (steps : List ι)
    (initially : holds start) (along : Along step meets start steps) : Always step holds start steps := by
  induction steps generalizing start with
  | nil => exact initially
  | cons i rest ih => exact ⟨initially,ih (step start i) (kept start i initially along.1) along.2⟩

/-- What each step does where an invariant holds that steps of the condition keep. -/
theorem along_of_along (step : σ → ι → σ) (meets does : σ → ι → Prop) (inv : σ → Prop)
    (kept : ∀ s i, inv s → meets s i → inv (step s i)) (done : ∀ s i, inv s → meets s i → does s i) (start : σ)
    (steps : List ι) (invariant : inv start) (along : Along step meets start steps) : Along step does start steps := by
  induction steps generalizing start with
  | nil => trivial
  | cons i rest ih =>
    exact ⟨done start i invariant along.1,ih (step start i) (kept start i invariant along.1) along.2⟩

/-- Under an invariant of every step: where a step keeps what holds exactly when it meets
the condition, a run keeps it throughout exactly when all its steps meet the condition. -/
theorem always_iff_along (step : σ → ι → σ) (meets : σ → ι → Prop) (holds inv : σ → Prop) (allowed : ι → Prop)
    (kept : ∀ s i, inv s → allowed i → inv (step s i))
    (exact : ∀ s i, inv s → allowed i → holds s → (holds (step s i) ↔ meets s i)) (start : σ) (steps : List ι)
    (inputs : ∀ i ∈ steps, allowed i) (invariant : inv start) (initially : holds start) :
    Always step holds start steps ↔ Along step meets start steps := by
  induction steps generalizing start with
  | nil => exact ⟨fun _ => trivial,fun _ => initially⟩
  | cons i rest ih =>
    have now := inputs i List.mem_cons_self
    have later : ∀ j ∈ rest, allowed j := fun j member => inputs j (List.mem_cons_of_mem i member)
    have invariantNext := kept start i invariant now
    constructor
    · intro always
      have next := always_start step holds (step start i) rest always.2
      exact ⟨(exact start i invariant now initially).mp next,
        (ih (step start i) later invariantNext next).mp always.2⟩
    · intro along
      have next := (exact start i invariant now initially).mpr along.1
      exact ⟨initially,(ih (step start i) later invariantNext next).mpr along.2⟩

/-- A property of the states and one of the steps, under an invariant of every step: together
they hold of a step exactly when it meets the condition. -/
theorem always_along_iff_under (step : σ → ι → σ) (meets does : σ → ι → Prop) (holds inv : σ → Prop)
    (kept : ∀ s i, inv s → inv (step s i))
    (exact : ∀ s i, inv s → holds s → (holds (step s i) ∧ does s i ↔ meets s i)) (start : σ) (steps : List ι)
    (invariant : inv start) (initially : holds start) :
    (Always step holds start steps ∧ Along step does start steps) ↔ Along step meets start steps := by
  induction steps generalizing start with
  | nil => exact ⟨fun _ => trivial,fun _ => ⟨initially,trivial⟩⟩
  | cons i rest ih =>
    have invariantNext := kept start i invariant
    constructor
    · rintro ⟨⟨_,always⟩,now,later⟩
      have next := always_start step holds (step start i) rest always
      exact ⟨(exact start i invariant initially).mp ⟨next,now⟩,(ih (step start i) invariantNext next).mp ⟨always,later⟩⟩
    · rintro ⟨now,later⟩
      obtain ⟨next,done⟩ := (exact start i invariant initially).mpr now
      obtain ⟨always,along⟩ := (ih (step start i) invariantNext next).mpr later
      exact ⟨⟨initially,always⟩,done,along⟩

theorem always_along_iff (step : σ → ι → σ) (meets does : σ → ι → Prop) (holds : σ → Prop)
    (exact : ∀ s i, holds s → (holds (step s i) ∧ does s i ↔ meets s i)) (start : σ) (steps : List ι)
    (initially : holds start) :
    (Always step holds start steps ∧ Along step does start steps) ↔ Along step meets start steps :=
  always_along_iff_under step meets does holds (fun _ => True) (fun _ _ _ => trivial) (fun s i _ => exact s i) start steps
    trivial initially

/-- The same where what holds is not itself kept by a step: something stronger is, under
the condition, and what holds after a step forces the condition on that step. -/
theorem always_iff_along_forced (step : σ → ι → σ) (meets : σ → ι → Prop) (holds strong inv : σ → Prop)
    (kept : ∀ s i, inv s → inv (step s i))
    (strongKept : ∀ s i, inv s → strong s → meets s i → strong (step s i))
    (weaker : ∀ s, inv s → strong s → holds s)
    (forced : ∀ s i, inv s → holds (step s i) → meets s i) (start : σ) (steps : List ι)
    (invariant : inv start) (initially : strong start) :
    Always step holds start steps ↔ Along step meets start steps := by
  induction steps generalizing start with
  | nil => exact ⟨fun _ => trivial,fun _ => weaker start invariant initially⟩
  | cons i rest ih =>
    constructor
    · intro always
      have now := forced start i invariant (always_start step holds (step start i) rest always.2)
      have later := ih (step start i) (kept start i invariant) (strongKept start i invariant initially now)
      exact ⟨now,later.mp always.2⟩
    · intro along
      have later := ih (step start i) (kept start i invariant) (strongKept start i invariant initially along.1)
      exact ⟨weaker start invariant initially,later.mpr along.2⟩

/-! A measure that some step lowers as long as it is not zero. Which step that is may depend
on the state, but no step that leaves the measure as it is changes it: the step waits for
its turn. -/
section Rounds
variable (step : σ → ι → σ) (measure : σ → ℕ) (helpful : σ → ι) (inv : σ → Prop)
  (kept : ∀ s i, inv s → inv (step s i))
  (lowers : ∀ s, inv s → 0 < measure s → measure (step s (helpful s)) < measure s)
  (waits : ∀ s i, inv s → measure (step s i) < measure s ∨
    measure (step s i) = measure s ∧ helpful (step s i) = helpful s)
include kept waits

theorem run_falls (s : σ) (steps : List ι) (invariant : inv s) : measure (run step s steps) ≤ measure s := by
  induction steps generalizing s with
  | nil => exact Nat.le_refl _
  | cons i rest ih =>
    have later := ih (step s i) (kept s i invariant)
    cases waits s i invariant with
    | inl lower => exact Nat.le_trans later (Nat.le_of_lt lower)
    | inr same => exact Nat.le_trans later (Nat.le_of_eq same.1)

include lowers

theorem round_lowers (s : σ) (round : List ι) (invariant : inv s) (left : 0 < measure s)
    (turn : helpful s ∈ round) : measure (run step s round) < measure s := by
  induction round generalizing s with
  | nil => cases turn
  | cons i rest ih =>
    have invariantNext := kept s i invariant
    have later := run_falls step measure helpful inv kept waits (step s i) rest invariantNext
    cases waits s i invariant with
    | inl lower => exact Nat.lt_of_le_of_lt later lower
    | inr same =>
      obtain ⟨measured,helps⟩ := same
      cases List.mem_cons.mp turn with
      | inl now =>
        have lower := lowers s invariant left
        rw [now,measured] at lower
        exact absurd lower (Nat.lt_irrefl _)
      | inr rest =>
        have next := ih (step s i) invariantNext (measured ▸ left) (helps ▸ rest)
        rw [measured] at next
        exact next

/-- Enough rounds in which every helpful step has a turn bring the measure to zero. -/
theorem rounds_done (s : σ) (rounds : List (List ι)) (invariant : inv s)
    (fair : ∀ round ∈ rounds, ∀ t, helpful t ∈ round) (enough : measure s ≤ rounds.length) :
    measure (run step s rounds.flatten) = 0 := by
  induction rounds generalizing s with
  | nil => exact Nat.le_zero.mp enough
  | cons round rest ih =>
    have rounds : ∀ other ∈ rest, ∀ t, helpful t ∈ other :=
      fun other member => fair other (List.mem_cons_of_mem round member)
    have invariantNext : inv (run step s round) := run_always step inv kept s round invariant
    have same : run step s (round :: rest).flatten = run step (run step s round) rest.flatten := by
      rw [List.flatten_cons]
      exact List.foldl_append
    rw [same]
    apply ih (run step s round) invariantNext rounds
    rw [List.length_cons] at enough
    cases Nat.eq_zero_or_pos (measure s) with
    | inl none =>
      have falls := run_falls step measure helpful inv kept waits s round invariant
      rw [none] at falls
      exact Nat.le_trans falls (Nat.zero_le _)
    | inr left =>
      have lower := round_lowers step measure helpful inv kept lowers waits s round invariant left
        (fair round List.mem_cons_self s)
      exact Nat.le_of_lt_succ (Nat.lt_of_lt_of_le lower enough)

end Rounds

theorem run_append (step : σ → ι → σ) (start : σ) (before after : List ι) :
    run step start (before ++ after) = run step (run step start before) after :=
  List.foldl_append

theorem along_append (step : σ → ι → σ) (meets : σ → ι → Prop) (start : σ) (before after : List ι) :
    Along step meets start (before ++ after) ↔
      Along step meets start before ∧ Along step meets (run step start before) after := by
  induction before generalizing start with
  | nil => exact ⟨fun along => ⟨trivial,along⟩,fun both => both.2⟩
  | cons i rest ih =>
    rw [List.cons_append,Along,Along,ih (step start i),and_assoc]
    rfl

/-- What holds at the end of a run and not at its start comes to hold by one of the steps. -/
theorem run_arises (step : σ → ι → σ) (holds : σ → Prop) (start : σ) (steps : List ι)
    (missing : ¬holds start) (last : holds (run step start steps)) :
    ∃ before i after, steps = before ++ i :: after ∧ ¬holds (run step start before) ∧
      holds (step (run step start before) i) := by
  induction steps generalizing start with
  | nil => exact absurd last missing
  | cons i rest ih =>
    by_cases now : holds (step start i)
    · exact ⟨[],i,rest,rfl,missing,now⟩
    · obtain ⟨before,j,after,parts,absent,arises⟩ := ih (step start i) now last
      exact ⟨i :: before,j,after,congrArg (i :: ·) parts,absent,arises⟩

/-- Some step of the run is one at which it happens. -/
def Occurred (step : σ → ι → σ) (happened : σ → ι → Prop) : σ → List ι → Prop
  | _, [] => False
  | s, i :: rest => happened s i ∨ Occurred step happened (step s i) rest

instance occurredDecidable (step : σ → ι → σ) (happened : σ → ι → Prop) [∀ s i, Decidable (happened s i)] :
    ∀ s steps, Decidable (Occurred step happened s steps)
  | _, [] => inferInstanceAs (Decidable False)
  | s, i :: rest =>
    have := occurredDecidable step happened (step s i) rest
    inferInstanceAs (Decidable (happened s i ∨ Occurred step happened (step s i) rest))

theorem occurred_concat (step : σ → ι → σ) (happened : σ → ι → Prop) (start : σ) (steps : List ι) (i : ι) :
    Occurred step happened start (steps ++ [i]) ↔
      Occurred step happened start steps ∨ happened (run step start steps) i := by
  induction steps generalizing start with
  | nil => exact or_comm
  | cons j rest ih =>
    rw [List.cons_append,Occurred,Occurred,ih (step start j),or_assoc]
    rfl

theorem occurred_congr (step : σ → ι → σ) (happened same : σ → ι → Prop) (agrees : ∀ s i, happened s i ↔ same s i)
    (start : σ) (steps : List ι) : Occurred step happened start steps ↔ Occurred step same start steps := by
  induction steps generalizing start with
  | nil => exact Iff.rfl
  | cons i rest ih => exact or_congr (agrees start i) (ih (step start i))

theorem occurred_and (step : σ → ι → σ) (happened : σ → ι → Prop) (always : Prop) (start : σ) (steps : List ι) :
    (Occurred step happened start steps ∧ always) ↔ Occurred step (fun s i => happened s i ∧ always) start steps := by
  induction steps generalizing start with
  | nil => exact ⟨fun both => both.1,fun never => never.elim⟩
  | cons i rest ih =>
    rw [Occurred,Occurred,← ih (step start i),or_and_right]

theorem occurred_exists {β : Type*} (step : σ → ι → σ) (happened : β → σ → ι → Prop) (start : σ) (steps : List ι) :
    (∃ b, Occurred step (happened b) start steps) ↔ Occurred step (fun s i => ∃ b, happened b s i) start steps := by
  induction steps generalizing start with
  | nil => exact ⟨fun ⟨_,never⟩ => never,fun never => never.elim⟩
  | cons i rest ih =>
    rw [Occurred,← ih (step start i),← exists_or]
    rfl

end ClawKernel.Lib.Runs
