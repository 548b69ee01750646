import Mathlib.Data.List.Range
import ClawKernel.Lib.Runs

/-! A broadcast channel that keeps the last events in so many slots, and a loop that reads it:
it takes up one event after another and does the jobs of each before it reads on.
-/
namespace ClawKernel.Lib.Broadcast
open Lib.Runs

variable {ε : Type}

structure Channel (ε : Type) where
  sent : List ε
  closed : Bool

inductive Received (ε : Type) where
  | event (e : ε)
  | lagged (missed : ℕ)
  | closed

/-- What a receiver gets whose next event has this number, and its next number; nothing as
long as it has to wait. -/
def recv (slots : ℕ) (c : Channel ε) (next : ℕ) : Option (Received ε × ℕ) :=
  if next + slots < c.sent.length then
    some (.lagged (c.sent.length - slots - next),c.sent.length - slots)
  else
    match c.sent[next]? with
    | some e => some (.event e,next + 1)
    | none => if c.closed then some (.closed,next) else none

def send (c : Channel ε) (events : List ε) : Channel ε :=
  if c.closed then c else { c with sent := c.sent ++ events }

/-- What a job comes to: the events it publishes, the jobs it leaves, and whether the loop
goes on. -/
structure Outcome (ε : Type) (job : Type) where
  published : List ε
  more : List job
  goesOn : Bool

structure Listener (ε : Type) where
  Job : Type
  Input : Type
  accepts : ε → Bool
  jobs : ε → List Job
  work : Job → Input → Outcome ε Job

/-- The numbers of the events it has taken up are kept, and the one from which on it has
missed none. -/
structure State (l : Listener ε) where
  channel : Channel ε
  next : ℕ
  jobs : List l.Job
  ended : Bool
  failed : Bool
  taken : List ℕ
  since : ℕ

inductive Turn (l : Listener ε) where
  | publish (e : ε)
  | close
  | poll
  | work (input : l.Input)

/-- A new receiver. -/
def subscribe (l : Listener ε) (c : Channel ε) : State l := ⟨c,c.sent.length,[],false,false,[],c.sent.length⟩

section Loop
variable {l : Listener ε} (slots : ℕ) (tolerant : Bool)

def poll (s : State l) : State l :=
  match recv slots s.channel s.next with
  | none => s
  | some (.event e,next) =>
    { s with next := next, jobs := if l.accepts e then l.jobs e else [], taken := s.taken ++ [s.next] }
  | some (.lagged _,next) =>
    if tolerant then { s with next := next, since := next } else { s with next := next, ended := true }
  | some (.closed,_) => { s with ended := true }

def work (s : State l) (input : l.Input) : State l :=
  match s.jobs with
  | [] => s
  | job :: rest =>
    let outcome := l.work job input
    let after := { s with channel := send s.channel outcome.published, jobs := outcome.more ++ rest }
    if outcome.goesOn then after else { after with ended := true, failed := true }

def step (s : State l) : Turn l → State l
  | .publish e => { s with channel := send s.channel [e] }
  | .close => { s with channel := { s.channel with closed := true } }
  | .poll => if s.ended || !s.jobs.isEmpty then s else poll slots tolerant s
  | .work input => if s.ended then s else work s input

/-- It reads: it has not ended, and has no job to do. -/
def Reads (s : State l) : Prop := s.ended = false ∧ s.jobs = []

/-- It has fallen behind by more than the channel keeps. -/
def Behind (s : State l) : Prop := s.next + slots < s.channel.sent.length

/-- It ends only with the channel or by a job, and all events from some number up to where it
reads it has taken up one after another. -/
structure Listens (s : State l) : Prop where
  ends : s.ended = true → s.channel.closed = true ∨ s.failed = true
  inOrder : ∃ earlier, s.taken = earlier ++ List.range' s.since (s.next - s.since)
  bounds : s.since ≤ s.next ∧ s.next ≤ s.channel.sent.length

/-- Where there is an event to read it takes up the next one; has it missed some, it goes on
with the oldest that is kept. -/
def Proceeds (s : State l) (turn : Turn l) : Prop :=
  turn = .poll → Reads s → s.next < s.channel.sent.length →
    (step slots tolerant s turn).ended = false ∧
      (Behind slots s → (step slots tolerant s turn).next = s.channel.sent.length - slots) ∧
      (¬Behind slots s → (step slots tolerant s turn).taken = s.taken ++ [s.next] ∧
        (step slots tolerant s turn).next = s.next + 1)

/-- Where a loss is an error, it never falls behind by more than the channel keeps. -/
def KeepsUp (s : State l) (turn : Turn l) : Prop :=
  turn = .poll → Reads s → tolerant = false → ¬Behind slots s

theorem send_closed (c : Channel ε) (events : List ε) : (send c events).closed = c.closed := by
  unfold send
  split <;> rfl

theorem send_length (c : Channel ε) (events : List ε) : c.sent.length ≤ (send c events).sent.length := by
  unfold send
  split
  · exact Nat.le_refl _
  · rw [List.length_append]
    exact Nat.le_add_right _ _

/-- The four ways a `recv` can go. -/
theorem recv_cases (c : Channel ε) (next : ℕ) :
    next + slots < c.sent.length ∧
        recv slots c next = some (.lagged (c.sent.length - slots - next),c.sent.length - slots) ∨
      ¬next + slots < c.sent.length ∧ (∃ e, c.sent[next]? = some e ∧ recv slots c next = some (.event e,next + 1)) ∨
      ¬next + slots < c.sent.length ∧ c.sent.length ≤ next ∧ c.closed = true ∧ recv slots c next = some (.closed,next) ∨
      ¬next + slots < c.sent.length ∧ c.sent.length ≤ next ∧ recv slots c next = none := by
  unfold recv
  by_cases behind : next + slots < c.sent.length
  · rw [if_pos behind]
    exact Or.inl ⟨behind,rfl⟩
  · rw [if_neg behind]
    right
    cases found : c.sent[next]? with
    | some e => exact Or.inl ⟨behind,e,rfl,rfl⟩
    | none =>
      have past := List.getElem?_eq_none_iff.mp found
      cases closed : c.closed with
      | true => exact Or.inr (Or.inl ⟨behind,past,rfl,rfl⟩)
      | false => exact Or.inr (Or.inr ⟨behind,past,rfl⟩)

theorem poll_step (s : State l) (reads : Reads s) : step slots tolerant s .poll = poll slots tolerant s := by
  rw [step,reads.1,reads.2]
  rfl

theorem busy_step (s : State l) (busy : ¬Reads s) : step slots tolerant s .poll = s := by
  rw [step]
  apply if_pos
  rw [Bool.or_eq_true,Bool.not_eq_true',List.isEmpty_eq_false_iff]
  cases ended : s.ended with
  | true => exact Or.inl rfl
  | false => exact Or.inr (fun none => busy ⟨ended,none⟩)

theorem proceeds_iff (s : State l) (turn : Turn l) :
    Proceeds slots tolerant s turn ↔ KeepsUp slots tolerant s turn := by
  constructor
  · rintro proceeds rfl reads strict behind
    have next : s.next < s.channel.sent.length := Nat.lt_of_le_of_lt (Nat.le_add_right _ _) behind
    have running := (proceeds rfl reads next).1
    rw [poll_step slots tolerant s reads] at running
    unfold poll at running
    rw [show recv slots s.channel s.next = _ from if_pos behind,strict] at running
    cases running
  · rintro keeps rfl reads next
    rw [poll_step slots tolerant s reads]
    unfold poll
    rcases recv_cases slots s.channel s.next with ⟨behind,received⟩ | ⟨within,e,_,received⟩ | ⟨_,past,_⟩ | ⟨_,past,_⟩
    · rw [received]
      cases strict : tolerant with
      | false => exact absurd behind (keeps rfl reads strict)
      | true => exact ⟨reads.1,fun _ => rfl,fun clash => absurd behind clash⟩
    · rw [received]
      exact ⟨reads.1,fun clash => absurd clash within,fun _ => ⟨rfl,rfl⟩⟩
    · exact absurd next (Nat.not_lt_of_le past)
    · exact absurd next (Nat.not_lt_of_le past)

theorem subscribe_listens (c : Channel ε) : Listens (subscribe l c) := by
  refine ⟨fun clash => absurd clash Bool.false_ne_true,⟨[],?_⟩,Nat.le_refl _,Nat.le_refl _⟩
  rw [show (subscribe l c).next - (subscribe l c).since = 0 from Nat.sub_self _]
  rfl

/-- The channel changes under the loop, or the jobs do: what it has read stays. -/
theorem listens_kept (s : State l) (channel : Channel ε) (jobs : List l.Job) (ended failed : Bool) (listens : Listens s)
    (longer : s.channel.sent.length ≤ channel.sent.length)
    (ends : ended = true → channel.closed = true ∨ failed = true) :
    Listens { s with channel := channel, jobs := jobs, ended := ended, failed := failed } :=
  ⟨ends,listens.inOrder,listens.bounds.1,Nat.le_trans listens.bounds.2 longer⟩

theorem poll_listens (s : State l) (reads : Reads s) (keeps : KeepsUp slots tolerant s .poll) (listens : Listens s) :
    Listens (poll slots tolerant s) := by
  obtain ⟨_,⟨earlier,taken⟩,since,inside⟩ := listens
  have running : s.ended = true → s.channel.closed = true ∨ s.failed = true := by
    rw [reads.1]
    exact fun clash => absurd clash Bool.false_ne_true
  unfold poll
  rcases recv_cases slots s.channel s.next with ⟨behind,received⟩ | ⟨within,e,found,received⟩ | ⟨_,_,closed,received⟩ |
    ⟨_,_,received⟩
  · rw [received]
    cases strict : tolerant with
    | false => exact absurd behind (keeps rfl reads strict)
    | true =>
      refine ⟨running,⟨s.taken,?_⟩,Nat.le_refl _,Nat.sub_le _ _⟩
      simp only [if_true,Nat.sub_self,List.range'_zero,List.append_nil]
  · rw [received]
    refine ⟨running,⟨earlier,?_⟩,Nat.le_succ_of_le since,?_⟩
    · change s.taken ++ [s.next] = earlier ++ List.range' s.since (s.next + 1 - s.since)
      rw [taken,Nat.succ_sub since,List.range'_concat,Nat.one_mul,Nat.add_sub_cancel' since,List.append_assoc]
    · obtain ⟨bound,_⟩ := List.getElem?_eq_some_iff.mp found
      exact bound
  · rw [received]
    exact ⟨fun _ => Or.inl closed,⟨earlier,taken⟩,since,inside⟩
  · rw [received]
    exact ⟨running,⟨earlier,taken⟩,since,inside⟩

theorem work_listens (s : State l) (input : l.Input) (listens : Listens s) : Listens (work s input) := by
  unfold work
  split
  · exact listens
  · rename_i job rest _
    have longer := send_length s.channel (l.work job input).published
    dsimp only
    split
    · apply listens_kept s _ _ s.ended s.failed listens longer
      rw [send_closed]
      exact listens.ends
    · exact listens_kept s _ _ true true listens longer (fun _ => Or.inr rfl)

theorem step_listens (s : State l) (turn : Turn l) (listens : Listens s) (keeps : KeepsUp slots tolerant s turn) :
    Listens (step slots tolerant s turn) := by
  cases turn with
  | publish e =>
    apply listens_kept s _ s.jobs s.ended s.failed listens (send_length s.channel [e])
    rw [send_closed]
    exact listens.ends
  | close => exact listens_kept s _ s.jobs s.ended s.failed listens (Nat.le_refl _) (fun _ => Or.inl rfl)
  | poll =>
    by_cases reads : Reads s
    · rw [poll_step slots tolerant s reads]
      exact poll_listens slots tolerant s reads keeps listens
    · rw [busy_step slots tolerant s reads]
      exact listens
  | work input =>
    rw [step]
    split
    · exact listens
    · exact work_listens s input listens

theorem listens_iff (c : Channel ε) (turns : List (Turn l)) :
    (Always (step slots tolerant) Listens (subscribe l c) turns ∧
        Along (step slots tolerant) (Proceeds slots tolerant) (subscribe l c) turns) ↔
      Along (step slots tolerant) (KeepsUp slots tolerant) (subscribe l c) turns := by
  have same : Proceeds slots tolerant = KeepsUp slots tolerant (l := l) :=
    funext fun s => funext fun turn => propext (proceeds_iff slots tolerant s turn)
  rw [same]
  constructor
  · exact fun both => both.2
  · intro keeps
    exact ⟨always_of_along (step slots tolerant) _ Listens (fun s turn => step_listens slots tolerant s turn) _ turns
      (subscribe_listens c) keeps,keeps⟩

/-- Where no job ends the loop, none has. -/
theorem step_failed (goesOn : ∀ job input, (l.work job input).goesOn = true) (s : State l) (turn : Turn l)
    (sound : s.failed = false) : (step slots tolerant s turn).failed = false := by
  cases turn with
  | publish e => exact sound
  | close => exact sound
  | poll =>
    rw [step]
    split
    · exact sound
    · unfold poll
      split
      · exact sound
      · exact sound
      · split <;> exact sound
      · exact sound
  | work input =>
    rw [step]
    split
    · exact sound
    · unfold work
      split
      · exact sound
      · dsimp only
        rw [if_pos (goesOn _ _)]
        exact sound

/-- A burst that the loop does not read. -/
theorem burst_sent (s : State l) (isOpen : s.channel.closed = false) (e : ε) (n : ℕ) :
    run (step slots tolerant) s (List.replicate n (.publish e)) =
      { s with channel := ⟨s.channel.sent ++ List.replicate n e,false⟩ } := by
  induction n generalizing s with
  | zero =>
    rw [List.replicate_zero,List.replicate_zero,List.append_nil,← isOpen]
    rfl
  | succ n ih =>
    have published : step slots tolerant s (.publish e) = { s with channel := ⟨s.channel.sent ++ [e],false⟩ } := by
      rw [step,send,isOpen]
      rfl
    rw [List.replicate_succ]
    change run (step slots tolerant) (step slots tolerant s (.publish e)) (List.replicate n (.publish e)) = _
    rw [published,ih _ rfl,List.append_assoc]
    rfl

/-- Read after a burst of more events than the channel keeps, it loses the oldest: where a
loss is an error it does not proceed. -/
theorem burst_stops (c : Channel ε) (isOpen : c.closed = false) (e : ε) (n : ℕ) (many : slots < n) :
    ¬Along (step slots false) (Proceeds slots false) (subscribe l c) (List.replicate n (.publish e) ++ [.poll]) := by
  intro along
  have last := ((along_append (step slots false) _ _ _ _).mp along).2.1
  rw [burst_sent slots false (subscribe l c) isOpen e n] at last
  have keeps := (proceeds_iff slots false _ _).mp last rfl ⟨rfl,rfl⟩ rfl
  apply keeps
  change c.sent.length + slots < (c.sent ++ List.replicate n e).length
  rw [List.length_append,List.length_replicate]
  exact Nat.add_lt_add_left many _

end Loop
end ClawKernel.Lib.Broadcast
