import Mathlib.Logic.Function.Iterate
import ClawKernel.Lib.Runs
import ClawKernel.Lib.Tables

/-! Calls from several callers on one shared state. A call is its phase; an access to the
shared state is one step of it, and the calls take their steps in any order.
-/
namespace ClawKernel.Lib.Interleaving
open Lib.Runs Lib.Tables

variable {σ : Type*} {π : Type*} {α : Type*}

structure System (σ : Type*) (π : Type*) where
  shared : σ
  calls : Table ℕ π

/-- Call number `n` enters with a request, or takes its next step. -/
inductive Action (α : Type*) where
  | enter (n : ℕ) (request : α)
  | advance (n : ℕ)
  deriving DecidableEq, Repr

def start (shared : σ) : System σ π := ⟨shared,∅⟩

variable (entered : α → π) (access : σ → π → σ × π)

def step (s : System σ π) : Action α → System σ π
  | .enter n request => if n ∈ s.calls then s else { s with calls := s.calls.insert n (entered request) }
  | .advance n =>
    match s.calls.lookup n with
    | none => s
    | some phase => ⟨(access s.shared phase).1,s.calls.insert n (access s.shared phase).2⟩

theorem step_enter (s : System σ π) (n : ℕ) (request : α) (fresh : s.calls.lookup n = none) :
    step entered access s (.enter n request) = { s with calls := s.calls.insert n (entered request) } :=
  if_neg (AList.lookup_eq_none.mp fresh)

theorem step_advance (s : System σ π) (n : ℕ) (phase : π) (found : s.calls.lookup n = some phase) :
    step entered access s (.advance n) = ⟨(access s.shared phase).1,s.calls.insert n (access s.shared phase).2⟩ := by
  rw [step,found]

theorem step_idle (s : System σ π) (n : ℕ) (absent : s.calls.lookup n = none) :
    step entered access s (.advance n) = s := by
  rw [step,absent]

theorem shared_enter (s : System σ π) (n : ℕ) (request : α) :
    (step entered access s (.enter n request)).shared = s.shared := by
  rw [step]
  split
  · rfl
  · rfl

/-- What one access keeps of the shared state, every step keeps. -/
theorem step_shared (holds : σ → Prop) (kept : ∀ shared phase, holds shared → holds (access shared phase).1)
    (s : System σ π) (action : Action α) (before : holds s.shared) :
    holds (step entered access s action).shared := by
  cases action with
  | enter n request =>
    rw [shared_enter]
    exact before
  | advance n =>
    cases found : s.calls.lookup n with
    | none =>
      rw [step_idle entered access s n found]
      exact before
    | some phase =>
      rw [step_advance entered access s n phase found]
      exact kept s.shared phase before

/-- How the phase of a call came about: it was so before, or it is that of a call that
enters or takes a step. -/
theorem lookup_step (s : System σ π) (action : Action α) (n : ℕ) (phase : π)
    (found : (step entered access s action).calls.lookup n = some phase) :
    s.calls.lookup n = some phase ∨
      (∃ request, action = .enter n request ∧ s.calls.lookup n = none ∧ phase = entered request) ∨
      ∃ earlier, action = .advance n ∧ s.calls.lookup n = some earlier ∧ phase = (access s.shared earlier).2 := by
  cases action with
  | enter k request =>
    cases taken : s.calls.lookup k with
    | some other =>
      rw [step,if_pos (AList.lookup_isSome.mp (Option.isSome_of_eq_some taken))] at found
      exact Or.inl found
    | none =>
      rw [step_enter entered access s k request taken] at found
      rcases lookup_of_insert s.calls k n _ phase found with ⟨rfl,enters⟩ | ⟨_,before⟩
      · exact Or.inr (Or.inl ⟨request,rfl,taken,enters⟩)
      · exact Or.inl before
  | advance k =>
    cases present : s.calls.lookup k with
    | none =>
      rw [step_idle entered access s k present] at found
      exact Or.inl found
    | some earlier =>
      rw [step_advance entered access s k earlier present] at found
      rcases lookup_of_insert s.calls k n _ phase found with ⟨rfl,next⟩ | ⟨_,before⟩
      · exact Or.inr (Or.inr ⟨earlier,rfl,present,next⟩)
      · exact Or.inl before

/-- After a call has entered there are the calls of before, and that one. -/
theorem lookup_enter (s : System σ π) (k : ℕ) (request : α) (n : ℕ) (phase : π)
    (found : (step entered access s (.enter k request)).calls.lookup n = some phase) :
    s.calls.lookup n = some phase ∨ phase = entered request := by
  rcases lookup_step entered access s _ n phase found with before | ⟨_,same,_,enters⟩ | ⟨_,clash,_,_⟩
  · exact Or.inl before
  · cases same
    exact Or.inr enters
  · cases clash

/-- After a call has moved there are the calls of before, and that one where it stands now. -/
theorem lookup_advance (s : System σ π) (k : ℕ) (moving : π) (present : s.calls.lookup k = some moving) (n : ℕ) (phase : π)
    (found : (step entered access s (.advance k)).calls.lookup n = some phase) :
    s.calls.lookup n = some phase ∨ phase = (access s.shared moving).2 := by
  rcases lookup_step entered access s _ n phase found with before | ⟨_,clash,_,_⟩ | ⟨_,same,before,next⟩
  · exact Or.inl before
  · cases clash
  · cases same
    rw [present] at before
    cases before
    exact Or.inr next

/-- A call whose steps no other call interrupts. -/
theorem run_alone (s : System σ π) (n : ℕ) (phase : π) (found : s.calls.lookup n = some phase) (steps : ℕ) :
    (run (step entered access) s (List.replicate steps (.advance n))).shared =
        ((fun each : σ × π => access each.1 each.2)^[steps] (s.shared,phase)).1 ∧
      (run (step entered access) s (List.replicate steps (.advance n))).calls.lookup n =
        some ((fun each : σ × π => access each.1 each.2)^[steps] (s.shared,phase)).2 := by
  induction steps generalizing s phase with
  | zero => exact ⟨rfl,found⟩
  | succ steps ih =>
    have next := step_advance entered access s n phase found
    have after : (step entered access s (.advance n)).calls.lookup n = some (access s.shared phase).2 := by
      rw [next]
      exact AList.lookup_insert s.calls
    have rest := ih (step entered access s (.advance n)) (access s.shared phase).2 after
    rw [congrArg System.shared next] at rest
    exact rest

end ClawKernel.Lib.Interleaving
