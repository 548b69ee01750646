import Mathlib.Algebra.BigOperators.Group.List.Basic
import Mathlib.Data.List.Basic
import Mathlib.Data.Set.Card
import Mathlib.Logic.Relation

/-! Cascades: rules answer events with further events, which the same rules may answer. An
order on the rules bounds how many generations an event can have, and that bounds how many
events it can have in all.
-/
namespace ClawKernel.Lib.Cascade

section Ranks
variable {α : Type*} (nodes : List α) (feeds : α → α → Prop)

def Within (a b : α) : Prop := a ∈ nodes ∧ b ∈ nodes ∧ feeds a b

def Acyclic : Prop := ∀ a, ¬Relation.TransGen (Within nodes feeds) a a

theorem acyclic_of_level (level : α → ℕ) (falls : ∀ a b, Within nodes feeds a b → level b < level a) :
    Acyclic nodes feeds := by
  have below : ∀ a b, Relation.TransGen (Within nodes feeds) a b → level b < level a := by
    intro a b path
    induction path with
    | single edge => exact falls _ _ edge
    | tail _ edge ih => exact Nat.lt_trans (falls _ _ edge) ih
  intro a cycle
  exact Nat.lt_irrefl (level a) (below a a cycle)

def reach (a : α) : Set α := { b | Relation.TransGen (Within nodes feeds) a b }

noncomputable def rank (a : α) : ℕ := (reach nodes feeds a).ncard

theorem reach_subset (a : α) : reach nodes feeds a ⊆ { b | b ∈ nodes } := by
  intro b reached
  cases reached with
  | single edge => exact edge.2.1
  | tail _ edge => exact edge.2.1

theorem rank_le (a : α) : rank nodes feeds a ≤ nodes.length := by
  classical
  have bound := Set.ncard_le_ncard (reach_subset nodes feeds a) (List.finite_toSet nodes)
  rw [← List.coe_toFinset,Set.ncard_coe_finset] at bound
  exact Nat.le_trans bound (List.toFinset_card_le nodes)

/-- Without a cycle fewer nodes can be reached from the next node. -/
theorem rank_lt (acyclic : Acyclic nodes feeds) (a b : α) (edge : Within nodes feeds a b) :
    rank nodes feeds b < rank nodes feeds a := by
  have included : reach nodes feeds b ⊆ reach nodes feeds a :=
    fun _ reached => Relation.TransGen.head edge reached
  have smaller : reach nodes feeds b ⊂ reach nodes feeds a := by
    refine ⟨included,?_⟩
    intro all
    exact acyclic b (all (Relation.TransGen.single edge))
  exact Set.ncard_lt_ncard smaller ((List.finite_toSet nodes).subset (reach_subset nodes feeds a))

end Ranks

/-- What one rule can give rise to, at an event with so many generations. -/
def share (width : ℕ) : ℕ → ℕ
  | 0 => 0
  | n + 1 => 1 + width * share width n

theorem share_le (width n m : ℕ) (le : n ≤ m) : share width n ≤ share width m := by
  induction m generalizing n with
  | zero =>
    rw [Nat.le_zero.mp le]
  | succ m ih =>
    cases n with
    | zero => exact Nat.zero_le _
    | succ n =>
      have before := Nat.mul_le_mul_left width (ih n (Nat.le_of_succ_le_succ le))
      exact Nat.add_le_add_left before 1

/-- An answer and all that it can give rise to is paid for by the share of its rule. -/
theorem share_lt (width n m : ℕ) (lt : n < m) : 1 + width * share width n ≤ share width m := by
  cases m with
  | zero => exact absurd lt (Nat.not_lt_zero n)
  | succ m =>
    have before := Nat.mul_le_mul_left width (share_le width n m (Nat.le_of_lt_succ lt))
    exact Nat.add_le_add_left before 1

section Generations
variable {Event : Type*} {Rule : Type*} {Stamp : Type*} (rules : List Rule) (answers : Rule → Event → Bool)
  (child : Stamp → Rule → Event → Event)

/-- The cascade of an event has at most so many generations, whatever the stamps. -/
def Dies : ℕ → Event → Prop
  | 0, event => ∀ rule ∈ rules, answers rule event = false
  | n + 1, event => ∀ rule ∈ rules, answers rule event = true → ∀ stamp, Dies n (child stamp rule event)

variable (all : ∀ event, ∃ n, Dies rules answers child n event)

open Classical in
noncomputable def generations (event : Event) : ℕ := Nat.find (all event)

theorem generations_dies (event : Event) : Dies rules answers child (generations rules answers child all event) event := by
  classical
  exact Nat.find_spec (all event)

theorem generations_le (n : ℕ) (event : Event) (dies : Dies rules answers child n event) :
    generations rules answers child all event ≤ n := by
  classical
  exact Nat.find_min' (all event) dies

theorem generations_child (rule : Rule) (event : Event) (stamp : Stamp) (member : rule ∈ rules)
    (answered : answers rule event = true) :
    generations rules answers child all (child stamp rule event) < generations rules answers child all event := by
  have dies := generations_dies rules answers child all event
  cases count : generations rules answers child all event with
  | zero =>
    rw [count] at dies
    rw [dies rule member] at answered
    cases answered
  | succ n =>
    rw [count] at dies
    exact Nat.lt_succ_of_le (generations_le rules answers child all n _ (dies rule member answered stamp))

/-- What one rule can still give rise to at this event. -/
noncomputable def weight (event : Event) : ℕ := share rules.length (generations rules answers child all event)

/-- An answer and all that every rule can make of it is paid for by the rule that gave it. -/
theorem answer_paid (rule : Rule) (event : Event) (stamp : Stamp) (member : rule ∈ rules)
    (answered : answers rule event = true) :
    1 + rules.length * weight rules answers child all (child stamp rule event) ≤ weight rules answers child all event :=
  share_lt rules.length _ _ (generations_child rules answers child all rule event stamp member answered)

/-- What a queue of events and a list of checks still to make can give rise to. -/
noncomputable def owed (queue : List Event) (checks : List (Event × Rule)) : ℕ :=
  (queue.map (fun event => rules.length * weight rules answers child all event)).sum +
    (checks.map (fun check => weight rules answers child all check.1)).sum

theorem owed_push (queue : List Event) (checks : List (Event × Rule)) (event : Event) :
    owed rules answers child all (queue ++ [event]) checks =
      owed rules answers child all queue checks + rules.length * weight rules answers child all event := by
  unfold owed
  rw [List.map_append,List.sum_append,List.map_singleton,List.sum_singleton]
  omega

/-- A queued event is worth as much as the checks it is turned into. -/
theorem owed_open (queue : List Event) (event : Event) :
    owed rules answers child all queue (rules.map (fun rule => (event,rule))) =
      owed rules answers child all (event :: queue) [] := by
  have same : (rules.map (fun rule => (event,rule))).map (fun check => weight rules answers child all check.1) =
      List.replicate rules.length (weight rules answers child all event) := by
    rw [List.map_map,← List.map_const]
    rfl
  unfold owed
  rw [same,List.sum_replicate_nat,List.map_cons,List.sum_cons,List.map_nil,List.sum_nil]
  omega

theorem owed_check (queue : List Event) (checks : List (Event × Rule)) (event : Event) (rule : Rule) :
    owed rules answers child all queue ((event,rule) :: checks) =
      owed rules answers child all queue checks + weight rules answers child all event := by
  unfold owed
  simp only [List.map_cons,List.sum_cons]
  omega

theorem owed_drop (queue : List Event) (checks : List (Event × Rule)) (n : ℕ) :
    owed rules answers child all (queue.drop n) checks ≤ owed rules answers child all queue checks := by
  have whole := congrArg (fun events => owed rules answers child all events checks) (List.take_append_drop n queue)
  unfold owed at whole ⊢
  simp only [List.map_append,List.sum_append] at whole
  omega

end Generations

end ClawKernel.Lib.Cascade
