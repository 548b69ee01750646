import Mathlib.Data.Option.Basic

/-! Two partial maps kept as inverses of each other while entries are set and dropped. -/
namespace ClawKernel.Lib.Inverse

variable {α : Type*} {β : Type*}

def Paired (f : α → Option β) (g : β → Option α) : Prop := ∀ a b, f a = some b ↔ g b = some a

variable [DecidableEq α] [DecidableEq β]

def set (f : α → Option β) (a : α) (b : β) : α → Option β := fun other => if other = a then some b else f other

def drop (f : α → Option β) (a : α) : α → Option β := fun other => if other = a then none else f other

omit [DecidableEq β] in
theorem drop_absent (f : α → Option β) (a : α) (absent : f a = none) : drop f a = f := by
  funext other
  unfold drop
  split
  · rename_i same
    rw [same,absent]
  · rfl

theorem paired_drop_both (f : α → Option β) (g : β → Option α) (paired : Paired f g) (a : α) (b : β)
    (found : f a = some b) : Paired (drop f a) (drop g b) := by
  intro c d
  have back := (paired a b).mp found
  have there := paired c d
  unfold drop
  by_cases key : c = a
  · rw [if_pos key]
    by_cases value : d = b
    · rw [if_pos value]
      exact ⟨fun impossible => (by cases impossible),fun impossible => (by cases impossible)⟩
    · rw [if_neg value,← there,key,found]
      exact ⟨fun impossible => (by cases impossible),fun same => absurd (Option.some_inj.mp same).symm value⟩
  · rw [if_neg key]
    by_cases value : d = b
    · rw [if_pos value,there,value,back]
      exact ⟨fun same => absurd (Option.some_inj.mp same).symm key,fun impossible => (by cases impossible)⟩
    · rw [if_neg value]
      exact there

omit [DecidableEq α] in
/-- Dropping on one side alone breaks a pair exactly if there is one. -/
theorem paired_drop_iff (f : α → Option β) (g : β → Option α) (paired : Paired f g) (b : β) :
    Paired f (drop g b) ↔ g b = none := by
  constructor
  · intro still
    cases found : g b with
    | none => rfl
    | some a =>
      have dropped := (still a b).mp ((paired a b).mpr found)
      rw [drop,if_pos rfl] at dropped
      cases dropped
  · intro absent
    rw [drop_absent g b absent]
    exact paired

/-- A new pair leaves the others as they are exactly if neither end is taken by another. -/
theorem paired_set_iff (f : α → Option β) (g : β → Option α) (paired : Paired f g) (a : α) (b : β) :
    Paired (set f a b) (set g b a) ↔ (∀ c, g b = some c → c = a) ∧ ∀ d, g d = some a → d = b := by
  constructor
  · intro still
    constructor
    · intro c found
      by_contra other
      have kept : set f a b c = some b := by
        rw [set,if_neg other]
        exact (paired c b).mpr found
      have moved := (still c b).mp kept
      rw [set,if_pos rfl,Option.some_inj] at moved
      exact other moved.symm
    · intro d found
      by_contra other
      have kept : set g b a d = some a := by
        rw [set,if_neg other]
        exact found
      have moved := (still a d).mpr kept
      rw [set,if_pos rfl,Option.some_inj] at moved
      exact other moved.symm
  · intro ⟨ownKey,ownValue⟩ c d
    unfold set
    by_cases key : c = a
    · rw [if_pos key]
      by_cases value : d = b
      · rw [if_pos value,key,value]
        exact ⟨fun _ => rfl,fun _ => rfl⟩
      · rw [if_neg value,key]
        exact ⟨fun same => absurd (Option.some_inj.mp same).symm value,fun found => absurd (ownValue d found) value⟩
    · rw [if_neg key]
      by_cases value : d = b
      · rw [if_pos value,value,paired c b]
        exact ⟨fun found => absurd (ownKey c found) key,fun same => absurd (Option.some_inj.mp same).symm key⟩
      · rw [if_neg value]
        exact paired c d

end ClawKernel.Lib.Inverse
