import Mathlib.Data.List.Infix

/-! Replacing every occurrence of a pattern in a list, from the left and without overlaps. -/
namespace ClawKernel.Lib.Replace

variable {α : Type*} [DecidableEq α] (pattern fresh : List α)

/-- `skip` elements still belong to the occurrence that was just replaced. -/
def replaceFrom : Nat → List α → List α
  | _, [] => []
  | skip + 1, _ :: rest => replaceFrom skip rest
  | 0, x :: rest =>
    if pattern <+: x :: rest then fresh ++ replaceFrom (pattern.length - 1) rest else x :: replaceFrom 0 rest

def replaceAll (text : List α) : List α := replaceFrom pattern fresh 0 text

theorem replaceFrom_absent (text : List α) (absent : ¬pattern <:+: text) : replaceFrom pattern fresh 0 text = text := by
  induction text with
  | nil => rfl
  | cons x rest ih =>
    have here : ¬pattern <+: x :: rest := fun starts => absent starts.isInfix
    have later : ¬pattern <:+: rest := fun occurs => absent (occurs.trans (List.suffix_cons x rest).isInfix)
    rw [replaceFrom,if_neg here,ih later]

theorem replaceFrom_same (nonempty : pattern ≠ []) (skip : Nat) (text : List α) :
    replaceFrom pattern pattern skip text = text.drop skip := by
  induction text generalizing skip with
  | nil => rw [replaceFrom,List.drop_nil]
  | cons x rest ih =>
    cases skip with
    | succ skip => rw [replaceFrom,ih,List.drop_succ_cons]
    | zero =>
      rw [replaceFrom]
      split
      · rename_i starts
        obtain ⟨y,tail,shape⟩ := List.exists_cons_of_ne_nil nonempty
        obtain ⟨after,whole⟩ := starts
        rw [ih]
        rw [shape] at whole ⊢
        rw [List.cons_append,List.cons.injEq] at whole
        rw [← whole.2,← whole.1]
        simp
      · rw [ih,List.drop_zero,List.drop_zero]

theorem replaceFrom_length (nonempty : pattern ≠ []) (text : List α) (skip : Nat) :
    (fresh.length ≤ pattern.length → (replaceFrom pattern fresh skip text).length + min skip text.length ≤ text.length) ∧
    (pattern.length ≤ fresh.length → text.length ≤ (replaceFrom pattern fresh skip text).length + skip) := by
  induction text generalizing skip with
  | nil => simp [replaceFrom]
  | cons x rest ih =>
    cases skip with
    | succ skip =>
      obtain ⟨shorter,longer⟩ := ih skip
      rw [replaceFrom]
      simp only [List.length_cons]
      omega
    | zero =>
      rw [replaceFrom]
      split
      · rename_i starts
        obtain ⟨shorter,longer⟩ := ih (pattern.length - 1)
        have fits := starts.length_le
        have positive := List.length_pos_of_ne_nil nonempty
        simp only [List.length_cons,List.length_append] at fits ⊢
        omega
      · obtain ⟨shorter,longer⟩ := ih 0
        simp only [List.length_cons]
        omega

/-- Replacing leaves a text as it is exactly when the pattern does not occur in it or is
replaced by itself. -/
theorem replaceAll_eq_iff (nonempty : pattern ≠ []) (text : List α) :
    replaceAll pattern fresh text = text ↔ ¬pattern <:+: text ∨ fresh = pattern := by
  constructor
  · intro unchanged
    by_cases occurs : pattern <:+: text
    · apply Or.inr
      unfold replaceAll at unchanged
      induction text with
      | nil => exact absurd (List.eq_nil_of_infix_nil occurs) nonempty
      | cons x rest ih =>
        rw [replaceFrom] at unchanged
        split at unchanged
        · rename_i starts
          obtain ⟨shorter,longer⟩ := replaceFrom_length pattern fresh nonempty rest (pattern.length - 1)
          have whole := congrArg List.length unchanged
          have fits := starts.length_le
          have positive := List.length_pos_of_ne_nil nonempty
          simp only [List.length_append,List.length_cons] at whole fits
          have size : fresh.length = pattern.length := by omega
          have begins : fresh <+: x :: rest := ⟨_,unchanged⟩
          exact List.IsPrefix.eq_of_length (List.prefix_of_prefix_length_le begins starts (le_of_eq size)) size
        · rename_i elsewhere
          injection unchanged with _ same
          exact ih same ((List.infix_cons_iff.mp occurs).resolve_left elsewhere)
    · exact .inl occurs
  · intro condition
    rcases condition with absent | same
    · exact replaceFrom_absent pattern fresh text absent
    · subst same
      rw [replaceAll,replaceFrom_same _ nonempty,List.drop_zero]

theorem replaceFrom_skipped (text : List α) (skip : Nat) (short : text.length ≤ skip) :
    replaceFrom pattern fresh skip text = [] := by
  induction text generalizing skip with
  | nil => rfl
  | cons x rest ih =>
    cases skip with
    | zero => exact absurd short (Nat.not_succ_le_zero rest.length)
    | succ skip => exact ih skip (Nat.le_of_succ_le_succ short)

theorem replaceAll_pattern (nonempty : pattern ≠ []) : replaceAll pattern fresh pattern = fresh := by
  obtain ⟨y,tail,shape⟩ := List.exists_cons_of_ne_nil nonempty
  subst shape
  rw [replaceAll,replaceFrom,if_pos (List.prefix_refl _),replaceFrom_skipped _ _ tail _ (by simp),List.append_nil]

end ClawKernel.Lib.Replace
