import Mathlib.Data.List.Basic

/-! A sender that waits for room before a bounded channel whose receiver is kept and never read. -/
namespace ClawKernel.Lib.Channel

variable {α : Type*}

/-- The channel's content, and what is still to be sent. -/
structure Sender (α : Type*) where
  capacity : Nat
  queue : List α
  pending : List α

def Sender.Waits (s : Sender α) : Prop := s.pending ≠ [] ∧ s.capacity ≤ s.queue.length

def Sender.Fits (s : Sender α) : Prop := s.pending = [] ∨ s.queue.length + s.pending.length ≤ s.capacity

def Sender.advance (s : Sender α) : Sender α :=
  match s.pending with
  | [] => s
  | item :: rest =>
    if s.queue.length < s.capacity then { s with queue := s.queue ++ [item],pending := rest } else s

theorem not_waits_of_fits (s : Sender α) (fits : s.Fits) : ¬s.Waits := by
  intro ⟨more,full⟩
  rcases fits with none | room
  · exact more none
  · have some := List.length_pos_of_ne_nil more
    omega

theorem fits_advance_iff (s : Sender α) : s.advance.Fits ↔ s.Fits := by
  obtain ⟨capacity,queue,pending⟩ := s
  cases pending with
  | nil => exact Iff.rfl
  | cons item rest =>
    by_cases room : queue.length < capacity
    · simp only [Sender.advance,if_pos room,Sender.Fits,List.length_append,List.length_cons,List.length_nil]
      constructor
      · intro fits
        rcases fits with none | bound
        · rw [none,List.length_nil]
          exact .inr (by omega)
        · exact .inr (by omega)
      · intro fits
        rcases fits with none | bound
        · cases none
        · exact .inr (by omega)
    · simp only [Sender.advance,if_neg room]

theorem advance_pending (s : Sender α) (item : α) (rest : List α) (more : s.pending = item :: rest) (fits : s.Fits) :
    s.advance.pending = rest := by
  have room : s.queue.length < s.capacity := by
    rcases fits with none | bound
    · rw [more] at none
      cases none
    · rw [more,List.length_cons] at bound
      omega
  simp only [Sender.advance,more,if_pos room]

end ClawKernel.Lib.Channel
