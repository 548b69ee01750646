import Mathlib.Data.List.Basic

/-! Machines that answer each input, and when two of them answer alike. -/
namespace ClawKernel.Lib.Replies

variable {σ : Type*} {τ : Type*} {ι : Type*} {β : Type*}

def replies (serve : σ → ι → σ × β) : σ → List ι → List β
  | _, [] => []
  | s, i :: rest => (serve s i).2 :: replies serve (serve s i).1 rest

/-- Machines whose states stay related as long as the inputs are of a kind, and whose answers
are the same exactly for inputs of that kind. -/
theorem replies_eq_iff (serve : σ → ι → σ × β) (plain : τ → ι → τ × β) (related : σ → τ → Prop) (meets : ι → Prop)
    (kept : ∀ s t i, related s t → meets i → related (serve s i).1 (plain t i).1)
    (same : ∀ s t i, related s t → ((serve s i).2 = (plain t i).2 ↔ meets i)) (s : σ) (t : τ) (inputs : List ι)
    (initially : related s t) : replies serve s inputs = replies plain t inputs ↔ ∀ i ∈ inputs, meets i := by
  induction inputs generalizing s t with
  | nil => exact ⟨fun _ => List.forall_mem_nil meets,fun _ => rfl⟩
  | cons i rest ih =>
    rw [replies,replies,List.cons_eq_cons,List.forall_mem_cons,same s t i initially]
    exact and_congr_right (fun now => ih (serve s i).1 (plain t i).1 (kept s t i initially now))

end ClawKernel.Lib.Replies
