import Mathlib.Data.Option.Basic
import Mathlib.Data.Sum.Order

/-! Loops that end with a result, run with a bound on their iterations.
A body gives the next state or the result. The rules below carry an invariant, a
bound on the iterations and a relation between two loops from one iteration to
the whole loop.
-/
namespace ClawKernel.Lib.Loops

variable {σ τ ρ π : Type*}

def iterate (body : σ → σ ⊕ ρ) : Nat → σ → Option ρ
  | 0, _ => none
  | fuel+1, s =>
    match body s with
    | .inl next => iterate body fuel next
    | .inr result => some result

def Throughout (body : σ → σ ⊕ ρ) (meets : σ → Prop) : Nat → σ → Prop
  | 0, _ => True
  | fuel+1, s => meets s ∧ ∀ next, body s = .inl next → Throughout body meets fuel next

theorem throughout_ended (body : σ → σ ⊕ ρ) (meets : σ → Prop) (fuel : Nat) (s : σ) (result : ρ)
    (ended : body s = .inr result) : Throughout body meets (fuel + 1) s ↔ meets s :=
  and_iff_left (fun next went => by rw [ended] at went; cases went)

theorem throughout_went (body : σ → σ ⊕ ρ) (meets : σ → Prop) (fuel : Nat) (s next : σ) (went : body s = .inl next) :
    Throughout body meets (fuel + 1) s ↔ meets s ∧ Throughout body meets fuel next := by
  refine and_congr_right (fun _ => ⟨fun later => later next went,fun along other same => ?_⟩)
  rw [went] at same
  cases same
  exact along

theorem throughout_of_all (body : σ → σ ⊕ ρ) (meets : σ → Prop) (all : ∀ s, meets s) (fuel : Nat) (s : σ) :
    Throughout body meets fuel s := by
  induction fuel generalizing s with
  | zero => trivial
  | succ fuel ih => exact ⟨all s,fun next _ => ih next⟩

theorem throughout_and (body : σ → σ ⊕ ρ) (first second : σ → Prop) (fuel : Nat) (s : σ)
    (one : Throughout body first fuel s) (other : Throughout body second fuel s) :
    Throughout body (fun s => first s ∧ second s) fuel s := by
  induction fuel generalizing s with
  | zero => trivial
  | succ fuel ih =>
    exact ⟨⟨one.1,other.1⟩,fun next taken => ih next (one.2 next taken) (other.2 next taken)⟩

theorem iterate_ends (body : σ → σ ⊕ ρ) (measure : σ → Nat) (limit : Nat)
    (grows : ∀ s next, body s = .inl next → measure s < limit ∧ measure s < measure next)
    (fuel : Nat) (s : σ) (enough : limit < fuel + measure s) (positive : 0 < fuel) :
    ∃ result, iterate body fuel s = some result := by
  induction fuel generalizing s with
  | zero => omega
  | succ fuel ih =>
    cases taken : body s with
    | inr result => exact ⟨result,by simp [iterate,taken]⟩
    | inl next =>
      obtain ⟨below,more⟩ := grows s next taken
      obtain ⟨result,found⟩ := ih next (by omega) (by omega)
      exact ⟨result,by simpa [iterate,taken] using found⟩

theorem iterate_invariant (body : σ → σ ⊕ ρ) (inv meets : σ → Prop) (post : ρ → Prop)
    (next : ∀ s t, inv s → meets s → body s = .inl t → inv t)
    (last : ∀ s r, inv s → meets s → body s = .inr r → post r)
    (fuel : Nat) (s : σ) (start : inv s) (along : Throughout body meets fuel s)
    (result : ρ) (found : iterate body fuel s = some result) : post result := by
  induction fuel generalizing s with
  | zero => simp [iterate] at found
  | succ fuel ih =>
    obtain ⟨now,later⟩ := along
    cases taken : body s with
    | inl t =>
      simp only [iterate,taken] at found
      exact ih t (next s t start now taken) (later t taken) found
    | inr ended =>
      simp only [iterate,taken,Option.some.injEq] at found
      exact found ▸ last s ended start now taken

/-- Two loops whose iterations keep a relation end with related results. -/
theorem iterate_related (left : σ → σ ⊕ ρ) (right : τ → τ ⊕ π) (related : σ → τ → Prop)
    (ends : ρ → π → Prop) (meets : σ → Prop)
    (step : ∀ s t, related s t → meets s → Sum.LiftRel related ends (left s) (right t))
    (fuel : Nat) (s : σ) (t : τ) (start : related s t) (along : Throughout left meets fuel s) :
    Option.Rel ends (iterate left fuel s) (iterate right fuel t) := by
  induction fuel generalizing s t with
  | zero => exact .none
  | succ fuel ih =>
    obtain ⟨now,later⟩ := along
    have both := step s t start now
    cases first : left s with
    | inl s' =>
      cases second : right t with
      | inl t' =>
        rw [first,second,Sum.liftRel_inl_inl] at both
        simpa [iterate,first,second] using ih s' t' both (later s' first)
      | inr b => simp [first,second] at both
    | inr a =>
      cases second : right t with
      | inl t' => simp [first,second] at both
      | inr b =>
        rw [first,second,Sum.liftRel_inr_inr] at both
        simpa [iterate,first,second] using Option.Rel.some both

/-! What the iterations make, one after the other. -/

variable {ι κ : Type*}

def along (body : σ → σ ⊕ ρ) (made : σ → List ι) : Nat → σ → List ι
  | 0, _ => []
  | fuel+1, s => made s ++ (body s).elim (along body made fuel) (fun _ => [])

theorem along_map (body : σ → σ ⊕ ρ) (made : σ → List ι) (f : ι → κ) (fuel : Nat) (s : σ) :
    along body (fun s => (made s).map f) fuel s = (along body made fuel s).map f := by
  induction fuel generalizing s with
  | zero => rfl
  | succ fuel ih =>
    rw [along,along,List.map_append]
    cases body s with
    | inl next => exact congrArg _ (ih next)
    | inr result => rfl

theorem along_sublist (body : σ → σ ⊕ ρ) (some all : σ → List ι) (each : ∀ s, (some s).Sublist (all s)) (fuel : Nat)
    (s : σ) : (along body some fuel s).Sublist (along body all fuel s) := by
  induction fuel generalizing s with
  | zero => exact List.Sublist.refl []
  | succ fuel ih =>
    refine (each s).append ?_
    cases body s with
    | inl next => exact ih next
    | inr result => exact List.Sublist.refl []

/-- A list that grows in every iteration by what the related loop makes in it ends with all
of that loop. -/
theorem iterate_grows (left : σ → σ ⊕ ρ) (right : τ → τ ⊕ π) (related : σ → τ → Prop) (ends : ρ → π → Prop)
    (read : σ → List ι) (final : ρ → List ι) (made : τ → List ι)
    (step : ∀ s t, related s t → Sum.LiftRel related ends (left s) (right t))
    (grows : ∀ s t, related s t → (left s).elim read final = read s ++ made t)
    (fuel : Nat) (s : σ) (t : τ) (start : related s t) (result : ρ) (found : iterate left fuel s = some result) :
    final result = read s ++ along right made fuel t := by
  induction fuel generalizing s t with
  | zero => cases found
  | succ fuel ih =>
    have both := step s t start
    have more := grows s t start
    rw [along,← List.append_assoc,← more]
    rw [iterate] at found
    cases first : left s with
    | inl s' =>
      rw [first] at found both
      cases second : right t with
      | inl t' =>
        rw [second,Sum.liftRel_inl_inl] at both
        exact ih s' t' both found
      | inr b => simp [second] at both
    | inr a =>
      rw [first] at found both
      cases found
      cases second : right t with
      | inl t' => simp [second] at both
      | inr b => exact (List.append_nil _).symm

end ClawKernel.Lib.Loops
