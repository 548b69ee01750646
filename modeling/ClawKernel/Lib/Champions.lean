import Mathlib.Data.List.Induction
import Mathlib.Order.Lattice
import ClawKernel.Lib.Tables

/-! The best candidate under each key: a table that keeps what it has only if that is better
than what comes, and the last of the greatest that it ends with.
-/
namespace ClawKernel.Lib.Champions
open Lib.Tables

variable {α κ ν : Type} [LinearOrder ν] (rank : α → ν)

/-- Nothing before it is greater, and all after it is less. -/
def LastMax (candidates : List α) (best : α) : Prop :=
  ∃ before after, candidates = before ++ best :: after ∧ (∀ other ∈ before, rank other ≤ rank best) ∧
    ∀ other ∈ after, rank other < rank best

def keep (present : Option α) (candidate : α) : Option α :=
  match present with
  | some best => if rank candidate < rank best then some best else some candidate
  | none => some candidate

theorem lastMax_bound (candidates : List α) (best other : α) (last : LastMax rank candidates best)
    (member : other ∈ candidates) : rank other ≤ rank best := by
  obtain ⟨before,after,rfl,least,less⟩ := last
  rcases List.mem_append.mp member with first | later
  · exact least other first
  rcases List.mem_cons.mp later with rfl | later
  · exact le_refl _
  · exact le_of_lt (less other later)

theorem lastMax_concat (candidates : List α) (best candidate : α) (last : LastMax rank candidates best) :
    ∃ kept, keep rank (some best) candidate = some kept ∧ LastMax rank (candidates ++ [candidate]) kept := by
  rw [keep]
  by_cases worse : rank candidate < rank best
  · obtain ⟨before,after,rfl,least,less⟩ := last
    refine ⟨best,if_pos worse,before,after ++ [candidate],by simp,least,fun other member => ?_⟩
    rcases List.mem_append.mp member with inside | same
    · exact less other inside
    · rw [List.mem_singleton.mp same]
      exact worse
  · refine ⟨candidate,if_neg worse,candidates,[],rfl,fun other member => ?_,by simp⟩
    exact le_trans (lastMax_bound rank candidates best other last member) (not_lt.mp worse)

/-- What has been kept is the last of the greatest, if there was anything to keep. -/
theorem foldl_keep (candidates : List α) :
    candidates = [] ∧ candidates.foldl (keep rank) none = none ∨
      ∃ best, candidates.foldl (keep rank) none = some best ∧ LastMax rank candidates best := by
  induction candidates using List.reverseRecOn with
  | nil => exact .inl ⟨rfl,rfl⟩
  | append_singleton candidates candidate ih =>
    rw [List.foldl_append,List.foldl_cons,List.foldl_nil]
    rcases ih with ⟨rfl,bare⟩ | ⟨best,kept,last⟩
    · exact .inr ⟨candidate,rfl,[],[],rfl,by simp,by simp⟩
    · rw [kept]
      exact .inr (lastMax_concat rank candidates best candidate last)

variable [DecidableEq κ] (key : α → κ)

def enter (table : Table κ α) (candidate : α) : Table κ α :=
  match table.lookup (key candidate) with
  | some best => if rank candidate < rank best then table else table.insert (key candidate) candidate
  | none => table.insert (key candidate) candidate

theorem lookup_enter (table : Table κ α) (candidate : α) (k : κ) :
    (enter rank key table candidate).lookup k =
      if k = key candidate then keep rank (table.lookup k) candidate else table.lookup k := by
  unfold enter
  by_cases same : k = key candidate
  · subst same
    rw [if_pos rfl]
    cases present : table.lookup (key candidate) with
    | none =>
      dsimp only
      rw [lookup_insert_if,if_pos rfl,keep]
    | some best =>
      dsimp only
      by_cases worse : rank candidate < rank best
      · rw [if_pos worse,present,keep,if_pos worse]
      · rw [if_neg worse,lookup_insert_if,if_pos rfl,keep,if_neg worse]
  · rw [if_neg same]
    cases table.lookup (key candidate) with
    | none =>
      dsimp only
      rw [lookup_insert_if,if_neg same]
    | some best =>
      dsimp only
      split
      · rfl
      · rw [lookup_insert_if,if_neg same]

/-- Under each key, the candidates of that key are kept as if there were no others. -/
theorem lookup_foldl_enter (candidates : List α) (table : Table κ α) (k : κ) :
    (candidates.foldl (enter rank key) table).lookup k =
      (candidates.filter (fun candidate => key candidate = k)).foldl (keep rank) (table.lookup k) := by
  induction candidates generalizing table with
  | nil => rfl
  | cons candidate rest ih =>
    rw [List.foldl_cons,ih,lookup_enter,List.filter_cons]
    by_cases same : key candidate = k
    · rw [if_pos same.symm,if_pos (decide_eq_true same),List.foldl_cons]
    · rw [if_neg (Ne.symm same),if_neg (fun chosen => same (of_decide_eq_true chosen))]

/-- Each key's entry is the last of the greatest candidates of that key. -/
theorem lookup_champion (candidates : List α) (k : κ) (best : α)
    (found : (candidates.foldl (enter rank key) ∅).lookup k = some best) :
    LastMax rank (candidates.filter (fun candidate => key candidate = k)) best := by
  rw [lookup_foldl_enter,AList.lookup_empty] at found
  rcases foldl_keep rank (candidates.filter (fun candidate => key candidate = k)) with ⟨_,bare⟩ | ⟨other,kept,last⟩
  · rw [bare] at found
    cases found
  · rw [kept] at found
    cases found
    exact last

theorem champion_exists (candidates : List α) (candidate : α) (member : candidate ∈ candidates) :
    ∃ best, (candidates.foldl (enter rank key) ∅).lookup (key candidate) = some best := by
  rw [lookup_foldl_enter,AList.lookup_empty]
  rcases foldl_keep rank (candidates.filter (fun other => key other = key candidate)) with ⟨bare,_⟩ | ⟨best,kept,_⟩
  · have inside : candidate ∈ candidates.filter (fun other => key other = key candidate) :=
      List.mem_filter.mpr ⟨member,decide_eq_true rfl⟩
    rw [bare] at inside
    cases inside
  · exact ⟨best,kept⟩

end ClawKernel.Lib.Champions
