import ClawKernel.Lib.Runs

/-! Runs that add and remove keys, and whether anything is left of a key between its removal
and the next time it is added.
-/
namespace ClawKernel.Lib.Removal
open Lib.Runs

variable {σ : Type*} {ι : Type*} {κ : Type*} [DecidableEq κ]

/-- A state with the keys removed and not added again since. -/
structure Watched (σ : Type*) (κ : Type*) where
  state : σ
  removed : List κ

def Gone (clear : σ → κ → Prop) (w : Watched σ κ) : Prop := ∀ k ∈ w.removed, clear w.state k

instance (clear : σ → κ → Prop) [∀ s k, Decidable (clear s k)] (w : Watched σ κ) : Decidable (Gone clear w) :=
  inferInstanceAs (Decidable (∀ k ∈ w.removed, clear w.state k))

section Watch
variable (step : σ → ι → σ) (removedBy addedBy : σ → ι → Option κ)

def watch (w : Watched σ κ) (i : ι) : Watched σ κ where
  state := step w.state i
  removed := ((removedBy w.state i).toList ++ w.removed).filter (fun k => addedBy w.state i ≠ some k)

theorem along_watch (meets : σ → ι → Prop) (w : Watched σ κ) (steps : List ι) :
    Along (watch step removedBy addedBy) (fun v => meets v.state) w steps ↔ Along step meets w.state steps := by
  induction steps generalizing w with
  | nil => exact Iff.rfl
  | cons i rest ih => exact and_congr_right (fun _ => ih (watch step removedBy addedBy w i))

/-- A removal is complete exactly when it meets the condition; other steps leave alone what
is clear unless they add it. -/
structure Accounts (clear : σ → κ → Prop) (meets : σ → ι → Prop) (s : σ) (i : ι) : Prop where
  kept : ∀ k, addedBy s i ≠ some k → clear s k → clear (step s i) k
  apart : ∀ k, removedBy s i = some k → addedBy s i = none
  exact : ∀ k, removedBy s i = some k → (clear (step s i) k ↔ meets s i)
  idle : removedBy s i = none → meets s i

theorem gone_watch_iff (clear : σ → κ → Prop) (meets : σ → ι → Prop) (w : Watched σ κ) (i : ι)
    (accounts : Accounts step removedBy addedBy clear meets w.state i) (gone : Gone clear w) :
    Gone clear (watch step removedBy addedBy w i) ↔ meets w.state i := by
  have before (k : κ) (member : k ∈ w.removed) (unnamed : addedBy w.state i ≠ some k) : clear (step w.state i) k :=
    accounts.kept k unnamed (gone k member)
  cases removed : removedBy w.state i with
  | none =>
    refine iff_of_true (fun k member => ?_) (accounts.idle removed)
    obtain ⟨held,unnamed⟩ := List.mem_filter.mp member
    rw [removed] at held
    exact before k held (of_decide_eq_true unnamed)
  | some k =>
    have unnamed := accounts.apart k removed
    rw [← accounts.exact k removed]
    constructor
    · intro left
      apply left k
      simp [watch,removed,unnamed]
    · intro clear other member
      obtain ⟨held,_⟩ := List.mem_filter.mp member
      rw [removed] at held
      rcases List.mem_cons.mp held with same | held
      · rw [same]
        exact clear
      · exact before other held (by rw [unnamed]; exact (Option.some_ne_none other).symm)

/-- Nothing is left of a removed key in any state of a run exactly when all removals of the
run meet the condition. -/
theorem always_gone_iff (clear : σ → κ → Prop) (meets : σ → ι → Prop) (inv : σ → Prop)
    (invariant : ∀ s i, inv s → inv (step s i))
    (accounts : ∀ s i, inv s → Accounts step removedBy addedBy clear meets s i)
    (start : σ) (initially : inv start) (steps : List ι) :
    Always (watch step removedBy addedBy) (Gone clear) ⟨start,[]⟩ steps ↔ Along step meets start steps := by
  rw [← along_watch step removedBy addedBy meets ⟨start,[]⟩]
  apply always_iff_along _ _ (Gone clear) (fun w => inv w.state) (fun _ => True)
  · intro w i holds _
    exact invariant w.state i holds
  · intro w i holds _ gone
    exact gone_watch_iff step removedBy addedBy clear meets w i (accounts w.state i holds) gone
  · exact fun _ _ => trivial
  · exact initially
  · intro k member
    cases member

end Watch
end ClawKernel.Lib.Removal
