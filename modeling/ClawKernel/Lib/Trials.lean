import ClawKernel.Lib.Rewriting

/-! The way of an expression that is tried first, and replacements that can fail.
-/
namespace ClawKernel.Lib.Trials
open Regex Rewriting

/-- The first way of an expression from a place ends at the other. -/
def First (regex : Regex) (place last : Place) : Prop := (regex.ways place).head? = some last

section Ways
variable (past rest : List Char) (captures : List (Nat × List Char))

theorem first_seq (one other : Regex) (place middle last : Place) (here : First one place middle)
    (there : First other middle last) : First (.seq one other) place last := by
  obtain ⟨later,ways⟩ := List.head?_eq_some_iff.mp here
  rw [First,Regex.ways,ways,List.flatMap_cons,List.head?_append,show (other.ways middle).head? = some last from there]
  rfl

theorem first_concat (item : Regex) (items : List Regex) (place middle last : Place) (here : First item place middle)
    (there : First (concat items) middle last) : First (concat (item :: items)) place last :=
  first_seq item (concat items) place middle last here there

theorem first_one (set : Char → Bool) (c : Char) (accepted : set c = true) :
    First (.one set) ⟨past,c :: rest,captures⟩ ⟨c :: past,rest,captures⟩ := by
  simp [First,Regex.ways,Place.step,accepted]

theorem first_literal (c : Char) : First (literal c) ⟨past,c :: rest,captures⟩ ⟨c :: past,rest,captures⟩ :=
  first_one past rest captures _ c (beq_self_eq_true c)

theorem first_letters (text : List Char) :
    First (concat (text.map literal)) ⟨past,text ++ rest,captures⟩ ⟨text.reverse ++ past,rest,captures⟩ := by
  induction text generalizing past with
  | nil => rfl
  | cons c text ih =>
    rw [List.map_cons,List.reverse_cons,List.append_assoc]
    exact first_concat _ _ _ _ _ (first_literal past (text ++ rest) captures c) (ih (c :: past))

/-- A run of the set's characters is taken to its end. -/
theorem first_star (set : Char → Bool) (taken : List Char) (all : ∀ c ∈ taken, set c = true)
    (stops : ∀ c, rest.head? = some c → set c = false) :
    First (.star (.one set)) ⟨past,taken ++ rest,captures⟩ ⟨taken.reverse ++ past,rest,captures⟩ := by
  have run (fuel : Nat) (enough : (taken ++ rest).length ≤ fuel) :
      (repeated (Place.step set) fuel ⟨past,taken ++ rest,captures⟩).head? =
        some ⟨taken.reverse ++ past,rest,captures⟩ := by
    induction taken generalizing past fuel with
    | nil =>
      cases fuel with
      | zero => rfl
      | succ fuel =>
        cases rest with
        | nil => rfl
        | cons c rest => simp [repeated,Place.step,stops c rfl]
    | cons c taken ih =>
      cases fuel with
      | zero => simp at enough
      | succ fuel =>
        have later := ih (c :: past) (fun d inside => all d (List.mem_cons_of_mem c inside)) fuel
          (Nat.le_of_succ_le_succ enough)
        simp [repeated,Place.step,all c List.mem_cons_self,later]
  exact run _ (Nat.le_refl _)

theorem first_plus (set : Char → Bool) (taken : List Char) (filled : taken ≠ []) (all : ∀ c ∈ taken, set c = true)
    (stops : ∀ c, rest.head? = some c → set c = false) :
    First (plus (.one set)) ⟨past,taken ++ rest,captures⟩ ⟨taken.reverse ++ past,rest,captures⟩ := by
  cases taken with
  | nil => exact (filled rfl).elim
  | cons c taken =>
    rw [List.forall_mem_cons] at all
    rw [List.reverse_cons,List.append_assoc]
    exact first_seq _ _ _ _ _ (first_one past (taken ++ rest) captures set c all.1)
      (first_star (c :: past) rest captures set taken all.2 stops)

theorem first_group (index : Nat) (body : Regex) (taken : List Char)
    (here : First body ⟨past,taken ++ rest,captures⟩ ⟨taken.reverse ++ past,rest,captures⟩) :
    First (.group index body) ⟨past,taken ++ rest,captures⟩ ⟨taken.reverse ++ past,rest,(index,taken) :: captures⟩ := by
  have between : Place.between ⟨past,taken ++ rest,captures⟩ ⟨taken.reverse ++ past,rest,captures⟩ = taken :=
    takes_between _ _ taken ⟨rfl,rfl⟩
  rw [First,Regex.ways,List.head?_map,show (body.ways _).head? = _ from here,Option.map_some,Place.capture,between]

end Ways

/-- A replacement that can fail, and then ends the whole. -/
structure Trial where
  regex : Regex
  fresh : List Char → (Nat → List Char) → Option (List Char)

namespace Trial
variable (trial : Trial)

def applyFrom : Nat → List Char → List Char → Option (List Char)
  | fuel + 1, past, c :: rest =>
    match (trial.regex.ways ⟨past,c :: rest,[]⟩).head? with
    | some last =>
      if last.rest.length < rest.length + 1 then
        (trial.fresh (Place.between ⟨past,c :: rest,[]⟩ last) (groups last)).bind (fun fresh =>
          (applyFrom fuel last.past last.rest).map (fresh ++ ·))
      else (applyFrom fuel (c :: past) rest).map (c :: ·)
    | none => (applyFrom fuel (c :: past) rest).map (c :: ·)
  | _, _, rest => some rest

/-- The text after what is past, with its matches replaced. -/
def apply (past text : List Char) : Option (List Char) := trial.applyFrom text.length past text

theorem applyFrom_enough (fuel : Nat) (past text : List Char) (enough : text.length ≤ fuel) :
    trial.applyFrom fuel past text = trial.apply past text := by
  unfold apply
  induction fuel using Nat.strongRecOn generalizing past text with
  | ind fuel ih =>
    cases text with
    | nil => cases fuel <;> rfl
    | cons c rest =>
      cases fuel with
      | zero => simp at enough
      | succ fuel =>
        have size : rest.length ≤ fuel := Nat.le_of_succ_le_succ enough
        have kept : trial.applyFrom fuel (c :: past) rest = trial.applyFrom rest.length (c :: past) rest :=
          ih fuel (Nat.lt_succ_self fuel) (c :: past) rest size
        rw [List.length_cons,applyFrom,applyFrom,kept]
        cases (trial.regex.ways ⟨past,c :: rest,[]⟩).head? with
        | none => rfl
        | some last =>
          simp only
          split_ifs with shorter
          · rw [ih fuel (Nat.lt_succ_self fuel) last.past last.rest (by omega)]
            rcases Nat.lt_or_ge rest.length (fuel + 1) with less | _
            · rw [← ih rest.length less last.past last.rest (by omega)]
            · omega
          · rfl

theorem apply_nil (past : List Char) : trial.apply past [] = some [] := rfl

/-- Nothing matches here. -/
theorem apply_cons (past rest : List Char) (c : Char) (none : trial.regex.ways ⟨past,c :: rest,[]⟩ = []) :
    trial.apply past (c :: rest) = (trial.apply (c :: past) rest).map (c :: ·) := by
  rw [apply,List.length_cons,applyFrom,none]
  rfl

/-- The first way from here takes a text. -/
theorem apply_found (past rest found : List Char) (captures : List (Nat × List Char)) (filled : found ≠ [])
    (way : First trial.regex ⟨past,found ++ rest,[]⟩ ⟨found.reverse ++ past,rest,captures⟩) :
    trial.apply past (found ++ rest) =
      (trial.fresh found (groups ⟨found.reverse ++ past,rest,captures⟩)).bind (fun fresh =>
        (trial.apply (found.reverse ++ past) rest).map (fresh ++ ·)) := by
  have between : Place.between ⟨past,found ++ rest,[]⟩ ⟨found.reverse ++ past,rest,captures⟩ = found :=
    takes_between _ _ found ⟨rfl,rfl⟩
  cases found with
  | nil => exact (filled rfl).elim
  | cons c found =>
    have shorter : rest.length < (found ++ rest).length + 1 := by
      rw [List.length_append]
      omega
    rw [First,List.cons_append] at way
    rw [List.cons_append] at between
    rw [apply,List.cons_append,List.length_cons,applyFrom,way]
    simp only [if_pos shorter,between]
    rw [applyFrom_enough _ _ _ _ (by rw [List.length_append]; omega)]

/-- Replacements that do not fail are those of a step. -/
theorem applyFrom_stage (stage : Stage) (same : trial.regex = stage.regex)
    (sure : ∀ found group, trial.fresh found group = some (stage.fresh found group)) (fuel : Nat) (past text : List Char) :
    trial.applyFrom fuel past text = some ((stage.segmentsFrom fuel past text).flatMap Segment.after) := by
  have after (found fresh : List Char) : (piece found fresh).flatMap Segment.after = fresh := by
    unfold piece
    split_ifs with equal
    · rw [flatMap_kept_after,equal]
    · exact List.append_nil fresh
  induction fuel generalizing past text with
  | zero => rw [applyFrom,Stage.segmentsFrom,flatMap_kept_after] <;> simp
  | succ fuel ih =>
    cases text with
    | nil => rfl
    | cons c rest =>
      rw [applyFrom,Stage.segmentsFrom,same]
      cases (stage.regex.ways ⟨past,c :: rest,[]⟩).head? with
      | none =>
        simp only [ih]
        rfl
      | some last =>
        simp only
        split_ifs
        · rw [sure,ih,List.flatMap_append,after]
          rfl
        · rw [ih]
          rfl

end Trial

end ClawKernel.Lib.Trials
