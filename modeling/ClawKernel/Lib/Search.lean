import Mathlib.Data.List.Infix

/-! Where one list occurs in another: the first place and the last. -/
namespace ClawKernel.Lib.Search

variable {α : Type*} (needle : List α)

def Occurs (needle text : List α) (i : Nat) : Prop := i ≤ text.length ∧ needle <+: text.drop i

theorem occurs_zero (text : List α) : Occurs needle text 0 ↔ needle <+: text := by
  simp [Occurs]

theorem occurs_succ (x : α) (rest : List α) (i : Nat) : Occurs needle (x :: rest) (i + 1) ↔ Occurs needle rest i := by
  simp [Occurs]

theorem occurs_iff_drop (some : needle ≠ []) (text : List α) (i : Nat) :
    Occurs needle text i ↔ ∃ tail, text.drop i = needle ++ tail := by
  constructor
  · rintro ⟨_,tail,split⟩
    exact ⟨tail,split.symm⟩
  · rintro ⟨tail,split⟩
    refine ⟨Nat.le_of_not_lt (fun past => some ?_),tail,split.symm⟩
    rw [List.drop_eq_nil_of_le (Nat.le_of_lt past)] at split
    exact (List.append_eq_nil_iff.mp split.symm).1

theorem occurs_bound (text : List α) (i : Nat) (occurs : Occurs needle text i) : i + needle.length ≤ text.length := by
  obtain ⟨inside,starts⟩ := occurs
  have := starts.length_le
  rw [List.length_drop] at this
  omega

variable [DecidableEq α]

def find : List α → Option Nat
  | [] => if needle <+: [] then some 0 else none
  | x :: rest => if needle <+: x :: rest then some 0 else (find rest).map (· + 1)

def rfind : List α → Option Nat
  | [] => if needle <+: [] then some 0 else none
  | x :: rest =>
    match rfind rest with
    | some i => some (i + 1)
    | none => if needle <+: x :: rest then some 0 else none

theorem find_cases (text : List α) :
    (∃ i, find needle text = some i ∧ Occurs needle text i ∧ ∀ j < i, ¬Occurs needle text j) ∨
      find needle text = none ∧ ∀ j, ¬Occurs needle text j := by
  induction text with
  | nil =>
    by_cases here : needle <+: []
    · exact .inl ⟨0,if_pos here,(occurs_zero needle []).mpr here,fun j below => absurd below (Nat.not_lt_zero j)⟩
    · refine .inr ⟨if_neg here,fun j occurs => here ?_⟩
      obtain ⟨_,starts⟩ := occurs
      rwa [List.drop_nil] at starts
  | cons x rest ih =>
    by_cases here : needle <+: x :: rest
    · exact .inl ⟨0,if_pos here,(occurs_zero needle _).mpr here,fun j below => absurd below (Nat.not_lt_zero j)⟩
    have later : find needle (x :: rest) = (find needle rest).map (· + 1) := if_neg here
    rcases ih with ⟨i,found,occurs,first⟩ | ⟨found,absent⟩
    · refine .inl ⟨i + 1,by rw [later,found]; rfl,(occurs_succ needle x rest i).mpr occurs,fun j below => ?_⟩
      cases j with
      | zero => exact fun now => here ((occurs_zero needle _).mp now)
      | succ j => exact fun now => first j (Nat.lt_of_succ_lt_succ below) ((occurs_succ needle x rest j).mp now)
    · refine .inr ⟨by rw [later,found]; rfl,fun j => ?_⟩
      cases j with
      | zero => exact fun now => here ((occurs_zero needle _).mp now)
      | succ j => exact fun now => absent j ((occurs_succ needle x rest j).mp now)

theorem absent_of_find (text : List α) (missing : find needle text = none) (i : Nat) : ¬Occurs needle text i := by
  rcases find_cases needle text with ⟨j,found,_⟩ | ⟨_,absent⟩
  · rw [missing] at found
    cases found
  · exact absent i

theorem first_of_find (text : List α) (i : Nat) (found : find needle text = some i) :
    Occurs needle text i ∧ ∀ j, Occurs needle text j → i ≤ j := by
  rcases find_cases needle text with ⟨j,same,occurs,first⟩ | ⟨missing,_⟩
  · rw [found,Option.some.injEq] at same
    subst same
    exact ⟨occurs,fun j occurs => Nat.le_of_not_lt (fun below => first j below occurs)⟩
  · rw [found] at missing
    cases missing

theorem rfind_cases (text : List α) :
    (∃ i, rfind needle text = some i ∧ Occurs needle text i ∧ ∀ j, i < j → ¬Occurs needle text j) ∨
      rfind needle text = none ∧ ∀ j, ¬Occurs needle text j := by
  induction text with
  | nil =>
    by_cases here : needle <+: []
    · refine .inl ⟨0,if_pos here,(occurs_zero needle []).mpr here,fun j above occurs => ?_⟩
      exact absurd (Nat.lt_of_lt_of_le above occurs.1) (Nat.lt_irrefl 0)
    · refine .inr ⟨if_neg here,fun j occurs => here ?_⟩
      obtain ⟨_,starts⟩ := occurs
      rwa [List.drop_nil] at starts
  | cons x rest ih =>
    rcases ih with ⟨i,found,occurs,last⟩ | ⟨found,absent⟩
    · refine .inl ⟨i + 1,by rw [rfind,found],(occurs_succ needle x rest i).mpr occurs,fun j above => ?_⟩
      cases j with
      | zero => exact absurd above (Nat.not_lt_zero _)
      | succ j => exact fun now => last j (Nat.lt_of_succ_lt_succ above) ((occurs_succ needle x rest j).mp now)
    have none_later (j : Nat) : ¬Occurs needle (x :: rest) (j + 1) := fun now =>
      absent j ((occurs_succ needle x rest j).mp now)
    by_cases here : needle <+: x :: rest
    · refine .inl ⟨0,by rw [rfind,found]; exact if_pos here,(occurs_zero needle _).mpr here,fun j above => ?_⟩
      cases j with
      | zero => exact absurd above (Nat.lt_irrefl 0)
      | succ j => exact none_later j
    · refine .inr ⟨by rw [rfind,found]; exact if_neg here,fun j => ?_⟩
      cases j with
      | zero => exact fun now => here ((occurs_zero needle _).mp now)
      | succ j => exact none_later j

end ClawKernel.Lib.Search
