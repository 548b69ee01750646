import Mathlib.Data.List.Infix

/-! A positional index of texts under keys. Writing a text sets the positions of the tokens
it has and leaves those of the others; erasing a text takes the positions of its tokens
away. A phrase is found where its tokens stand one after another.
-/
namespace ClawKernel.Lib.Postings

variable {κ τ : Type} [DecidableEq κ] [DecidableEq τ]

abbrev Index (κ τ : Type) := κ → τ → List Nat

def Index.empty : Index κ τ := fun _ _ => []

def positions (tokens : List τ) (token : τ) : List Nat :=
  (List.range tokens.length).filter (fun position => tokens[position]? = some token)

def write (index : Index κ τ) (key : κ) (tokens : List τ) : Index κ τ :=
  fun other token => if other = key ∧ token ∈ tokens then positions tokens token else index other token

def erase (index : Index κ τ) (key : κ) (tokens : List τ) : Index κ τ :=
  fun other token => if other = key ∧ token ∈ tokens then [] else index other token

def standsAt (index : Index κ τ) (key : κ) : Nat → List τ → Bool
  | _, [] => true
  | start, token :: rest => start ∈ index key token && standsAt index key (start + 1) rest

/-- The phrase stands somewhere under the key; an empty phrase stands nowhere. -/
def holds (index : Index κ τ) (key : κ) : List τ → Bool
  | [] => false
  | token :: rest => (index key token).any (fun start => standsAt index key (start + 1) rest)

def Occurs (phrase tokens : List τ) : Prop := phrase ≠ [] ∧ phrase <:+: tokens

instance occursDecidable (phrase tokens : List τ) : Decidable (Occurs phrase tokens) :=
  inferInstanceAs (Decidable (_ ∧ _))

omit [DecidableEq κ]

theorem mem_positions (tokens : List τ) (token : τ) (position : Nat) :
    position ∈ positions tokens token ↔ tokens[position]? = some token := by
  unfold positions
  rw [List.mem_filter,List.mem_range,decide_eq_true_eq]
  refine ⟨And.right,fun found => ⟨?_,found⟩⟩
  exact (List.getElem?_eq_some_iff.mp found).1

theorem positions_absent (tokens : List τ) (token : τ) (absent : token ∉ tokens) : positions tokens token = [] := by
  apply List.eq_nil_iff_forall_not_mem.mpr
  intro position member
  exact absent (List.mem_of_getElem? ((mem_positions tokens token position).mp member))

theorem write_follows [DecidableEq κ] (index : Index κ τ) (key : κ) (tokens : List τ)
    (clean : ∀ token, index key token ≠ [] → token ∈ tokens) (token : τ) :
    write index key tokens key token = positions tokens token := by
  unfold write
  by_cases member : token ∈ tokens
  · rw [if_pos ⟨rfl,member⟩]
  · rw [if_neg (fun both => member both.2),positions_absent tokens token member]
    exact Decidable.byContradiction (fun left => member (clean token left))

theorem write_other [DecidableEq κ] (index : Index κ τ) (key other : κ) (tokens : List τ) (apart : other ≠ key) :
    write index key tokens other = index other := by
  ext1 token
  exact if_neg (fun both => apart both.1)

theorem erase_other [DecidableEq κ] (index : Index κ τ) (key other : κ) (tokens : List τ) (apart : other ≠ key) :
    erase index key tokens other = index other := by
  ext1 token
  exact if_neg (fun both => apart both.1)

omit [DecidableEq τ] in
theorem cons_prefix_drop (tokens rest : List τ) (token : τ) (start : Nat) :
    token :: rest <+: tokens.drop start ↔ tokens[start]? = some token ∧ rest <+: tokens.drop (start + 1) := by
  rcases Nat.lt_or_ge start tokens.length with inside | past
  · rw [List.drop_eq_getElem_cons inside,List.cons_prefix_cons,List.getElem?_eq_getElem inside,Option.some_inj,
      eq_comm]
  · rw [List.drop_eq_nil_of_le past,List.getElem?_eq_none past]
    simp

section Follows
variable {index : Index κ τ} {key : κ} {tokens : List τ} (follows : ∀ token, index key token = positions tokens token)
include follows

theorem standsAt_iff (start : Nat) (phrase : List τ) :
    standsAt index key start phrase = true ↔ phrase <+: tokens.drop start := by
  induction phrase generalizing start with
  | nil => simp [standsAt]
  | cons token rest ih =>
    rw [standsAt,Bool.and_eq_true,ih,decide_eq_true_eq,follows,mem_positions,cons_prefix_drop]

/-- Where the index follows a text, it finds the phrases that occur in it. -/
theorem holds_iff (phrase : List τ) : holds index key phrase = true ↔ Occurs phrase tokens := by
  cases phrase with
  | nil => simp [holds,Occurs]
  | cons token rest =>
    have somewhere : token :: rest <:+: tokens ↔ ∃ start, token :: rest <+: tokens.drop start := by
      rw [List.infix_iff_prefix_suffix]
      constructor
      · rintro ⟨tail,front,back⟩
        exact ⟨tokens.length - tail.length,(List.suffix_iff_eq_drop.mp back) ▸ front⟩
      · rintro ⟨start,front⟩
        exact ⟨_,front,List.drop_suffix start tokens⟩
    rw [holds,List.any_eq_true,Occurs,somewhere]
    constructor
    · rintro ⟨start,member,stands⟩
      rw [follows,mem_positions] at member
      exact ⟨List.cons_ne_nil token rest,start,
        (cons_prefix_drop tokens rest token start).mpr ⟨member,(standsAt_iff follows _ rest).mp stands⟩⟩
    · rintro ⟨-,start,front⟩
      obtain ⟨first,later⟩ := (cons_prefix_drop tokens rest token start).mp front
      refine ⟨start,?_,(standsAt_iff follows _ rest).mpr later⟩
      rw [follows,mem_positions]
      exact first

end Follows

omit [DecidableEq τ] in
/-- What is found under a key stands there. -/
theorem holds_positive (index : Index κ τ) (key : κ) (phrase : List τ) (found : holds index key phrase = true) :
    ∃ token, index key token ≠ [] := by
  cases phrase with
  | nil => cases found
  | cons token rest =>
    obtain ⟨start,member,-⟩ := List.any_eq_true.mp found
    exact ⟨token,List.ne_nil_of_mem member⟩

end ClawKernel.Lib.Postings
