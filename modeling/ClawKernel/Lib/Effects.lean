import Mathlib.Data.Nat.Notation

/-! Programs with state and errors: what every effect keeps, a whole program keeps,
whether it returns or fails.
-/
namespace ClawKernel.Lib.Effects

variable {ε σ α β : Type} {inv : σ → Prop}

/-- The state a program leaves. -/
def leaves : EStateM.Result ε σ α → σ
  | .ok _ s => s
  | .error _ s => s

def Keeps (inv : σ → Prop) (effect : EStateM ε σ α) : Prop := ∀ s, inv s → inv (leaves (effect.run s))

theorem Keeps.pure (value : α) : Keeps inv (Pure.pure value : EStateM ε σ α) := fun _ holds => holds

theorem Keeps.throw (error : ε) : Keeps inv (MonadExcept.throw error : EStateM ε σ α) := fun _ holds => holds

theorem Keeps.modify {change : σ → σ} (changes : ∀ s, inv s → inv (change s)) :
    Keeps inv (modifyThe σ change : EStateM ε σ PUnit) := changes

theorem Keeps.bind {effect : EStateM ε σ α} {rest : α → EStateM ε σ β} (first : Keeps inv effect)
    (second : ∀ value, Keeps inv (rest value)) : Keeps inv (effect >>= rest) := by
  intro s holds
  have before := first s holds
  rw [EStateM.run_bind]
  cases ran : effect.run s with
  | ok value next =>
    rw [ran] at before
    exact second value next before
  | error error next =>
    rw [ran] at before
    exact before

/-- What is read is a state in which the invariant holds. -/
theorem Keeps.get {rest : σ → EStateM ε σ β} (second : ∀ s, inv s → Keeps inv (rest s)) :
    Keeps inv (MonadState.get >>= rest) := fun s holds => second s holds s holds

theorem Keeps.forM {effect : α → EStateM ε σ PUnit} (each : ∀ item, Keeps inv (effect item)) (items : List α) :
    Keeps inv (forM items effect) := by
  induction items with
  | nil => exact Keeps.pure _
  | cons item rest ih =>
    rw [List.forM_cons]
    exact (each item).bind (fun _ => ih)

end ClawKernel.Lib.Effects
