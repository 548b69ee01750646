import Mathlib.Data.List.Basic
import Mathlib.Data.List.Count

/-! A bounded channel whose senders are served in the order in which they came: a sender
that finds no free slot waits in line, and a slot that the receiver frees is handed to the
first in line at once, before that sender has put anything into it.
-/
namespace ClawKernel.Lib.Mailbox

variable {α : Type*} {τ : Type*}

structure Box (α : Type*) (τ : Type*) where
  queue : List α
  granted : List τ
  waiting : List τ

def Box.empty : Box α τ := ⟨[],[],[]⟩

/-- The slots in use: by messages, and by senders that have still to put theirs. -/
def Box.occupied (b : Box α τ) : Nat := b.queue.length + b.granted.length

def Box.line (b : Box α τ) : List τ := b.granted ++ b.waiting

/-- A `send` begins. -/
def Box.enter (capacity : Nat) (b : Box α τ) (sender : τ) : Box α τ :=
  if b.occupied < capacity then { b with granted := b.granted ++ [sender] }
  else { b with waiting := b.waiting ++ [sender] }

def Box.put [DecidableEq τ] (b : Box α τ) (sender : τ) (message : α) : Box α τ :=
  { b with queue := b.queue ++ [message], granted := b.granted.erase sender }

def Box.trySend (capacity : Nat) (b : Box α τ) (message : α) : Box α τ :=
  if b.occupied < capacity then { b with queue := b.queue ++ [message] } else b

/-- `recv`, which frees a slot. -/
def Box.take (b : Box α τ) : Option (α × Box α τ) :=
  match b.queue, b.waiting with
  | [], _ => none
  | message :: rest, [] => some (message,{ b with queue := rest })
  | message :: rest, first :: later =>
    some (message,⟨rest,b.granted ++ [first],later⟩)

theorem enter_line_perm (capacity : Nat) (b : Box α τ) (sender : τ) :
    (b.enter capacity sender).line.Perm (sender :: b.line) := by
  unfold Box.enter Box.line
  split_ifs
  · rw [List.append_assoc]
    exact List.perm_middle
  · rw [← List.append_assoc]
    exact List.perm_append_singleton sender _

theorem take_line (b rest : Box α τ) (message : α) (taken : b.take = some (message,rest)) :
    rest.line = b.line := by
  unfold Box.take at taken
  split at taken
  · cases taken
  · cases taken
    rfl
  · rename_i first later _ inLine
    cases taken
    simp only [Box.line,inLine,List.append_assoc,List.singleton_append]

theorem take_waiting (b rest : Box α τ) (message : α) (taken : b.take = some (message,rest)) :
    ∀ sender ∈ rest.waiting, sender ∈ b.waiting := by
  unfold Box.take at taken
  split at taken
  · cases taken
  · cases taken
    exact fun _ member => member
  · rename_i first later _ inLine
    cases taken
    intro sender member
    rw [inLine]
    exact List.mem_cons_of_mem first member

theorem trySend_line (capacity : Nat) (b : Box α τ) (message : α) :
    (b.trySend capacity message).line = b.line ∧ (b.trySend capacity message).waiting = b.waiting := by
  unfold Box.trySend
  split_ifs
  · exact ⟨rfl,rfl⟩
  · exact ⟨rfl,rfl⟩

theorem waits_iff (capacity : Nat) (b : Box α τ) (sender : τ) (fresh : sender ∉ b.line) :
    sender ∈ (b.enter capacity sender).waiting ↔ capacity ≤ b.occupied := by
  unfold Box.enter
  split_ifs with room
  · constructor
    · intro member
      exact absurd (List.mem_append_right b.granted member) fresh
    · intro full
      exact absurd room (Nat.not_lt.mpr full)
  · constructor
    · intro _
      exact Nat.le_of_not_lt room
    · intro _
      exact List.mem_append_right b.waiting (List.mem_singleton_self sender)

variable [DecidableEq τ]

theorem put_count (b : Box α τ) (sender other : τ) (message : α) (holds : sender ∈ b.granted) :
    (b.put sender message).line.count other = b.line.count other - if other = sender then 1 else 0 := by
  have there : 0 < b.granted.count sender := List.count_pos_iff.mpr holds
  simp only [Box.put,Box.line,List.count_append,List.count_erase]
  by_cases same : other = sender
  · subst same
    simp only [beq_self_eq_true,if_true]
    omega
  · have apart : (sender == other) = false := beq_false_of_ne (Ne.symm same)
    simp only [apart,if_neg same,Bool.false_eq_true,if_false,Nat.sub_zero]

end ClawKernel.Lib.Mailbox
