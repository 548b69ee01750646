import ClawKernel.Lib.Broadcast
import ClawKernel.Lib.Loops
import ClawKernel.Runtime.TriggerRegistry

/-! Receivers that yield only the events that pass a filter: the two methods that do not block
and the one that does, and what each of them makes of a loss.
-/
namespace ClawKernel.Runtime.FilteredReceiver
open Lib.Broadcast Lib.Loops
open Runtime.TriggerRegistry (LagStrategy)
open Server.EventTrigger (Event)

/-- `next` is the number of the event it reads next. -/
structure FilteredReceiver where
  next : Nat
  filter : Event → Bool
  lagStrategy : LagStrategy

inductive TryRecvError where
  | empty
  | closed
  | lagged (n : Nat)

def FilteredReceiver.at (r : FilteredReceiver) (next : Nat) : FilteredReceiver := { r with next := next }

section
variable (slots : Nat) (channel : Channel Event)

/-- One message is checked. -/
def tryRecv (r : FilteredReceiver) : Except TryRecvError Event × FilteredReceiver :=
  match Lib.Broadcast.recv slots channel r.next with
  | some (.event event,next) => (if r.filter event then .ok event else .error .empty,r.at next)
  | none => (.error .empty,r)
  | some (.closed,next) => (.error .closed,r.at next)
  | some (.lagged n,next) =>
    match r.lagStrategy with
    | .error => (.error (.lagged n),r.at next)
    | .skip => (.error .empty,r.at next)
    | .warn => (.error .empty,r.at next)

/-- The loop of `drain_until_match`. -/
def drainBody (r : FilteredReceiver) : FilteredReceiver ⊕ (Except TryRecvError Event × FilteredReceiver) :=
  match Lib.Broadcast.recv slots channel r.next with
  | some (.event event,next) => if r.filter event then .inr (.ok event,r.at next) else .inl (r.at next)
  | none => .inr (.error .empty,r)
  | some (.closed,next) => .inr (.error .closed,r.at next)
  | some (.lagged n,next) => .inr (.error (.lagged n),r.at next)

def drainUntilMatch (fuel : Nat) (r : FilteredReceiver) : Option (Except TryRecvError Event × FilteredReceiver) :=
  iterate (drainBody slots channel) fuel r

/-- The loop of `recv`, which waits where there is nothing to receive. -/
def recvBody (r : FilteredReceiver) : FilteredReceiver ⊕ (Option (Except String Event) × FilteredReceiver) :=
  match Lib.Broadcast.recv slots channel r.next with
  | some (.event event,next) => if r.filter event then .inr (some (.ok event),r.at next) else .inl (r.at next)
  | none => .inr (none,r)
  | some (.lagged n,next) =>
    match r.lagStrategy with
    | .error => .inr (some (.error ("filtered receiver lagged, " ++ toString n ++ " messages dropped")),r.at next)
    | .skip => .inl (r.at next)
    | .warn => .inl (r.at next)
  | some (.closed,next) => .inr (some (.error "event bus channel closed"),r.at next)

def recv (fuel : Nat) (r : FilteredReceiver) : Option (Option (Except String Event) × FilteredReceiver) :=
  iterate (recvBody slots channel) fuel r

/-- What the channel still has for a receiver. -/
def retained (r : FilteredReceiver) : List Event := channel.sent.drop (max r.next (channel.sent.length - slots))

def firstMatch (r : FilteredReceiver) : Option Event := (retained slots channel r).find? r.filter

/-- With any fuel that lets it read all there is, `drain_until_match` returns; what it returns is no
loss, and is the first retained event that passes the filter, which `recv` returns as well. -/
def HonoursLag (r : FilteredReceiver) : Prop :=
  ∃ outcome, (∀ fuel, channel.sent.length + 1 < fuel → (drainUntilMatch slots channel fuel r).map Prod.fst = some outcome) ∧
    (∀ n, outcome ≠ .error (.lagged n)) ∧
    ∀ event, firstMatch slots channel r = some event → outcome = .ok event ∧
      ∀ fuel, channel.sent.length + 1 < fuel → (recv slots channel fuel r).map Prod.fst = some (some (.ok event))

/-- It has fallen behind by more than the channel keeps. -/
def Lags (r : FilteredReceiver) : Prop := r.next + slots < channel.sent.length

/-- Bodies that read one event after another, and give it back if it passes. -/
structure Reads {ρ : Type} (body : FilteredReceiver → FilteredReceiver ⊕ (ρ × FilteredReceiver)) (found : Event → ρ)
    (last : ρ) : Prop where
  reading : ∀ r : FilteredReceiver, ¬Lags slots channel r → ∀ event, channel.sent[r.next]? = some event →
    body r = if r.filter event then .inr (found event,r.at (r.next + 1)) else .inl (r.at (r.next + 1))
  ending : ∀ r : FilteredReceiver, ¬Lags slots channel r → channel.sent[r.next]? = none → ∃ after, body r = .inr (last,after)

def drainLast : Except TryRecvError Event := .error (if channel.closed then .closed else .empty)

def recvLast : Option (Except String Event) := if channel.closed then some (.error "event bus channel closed") else none

theorem recv_reading (next : Nat) (within : ¬next + slots < channel.sent.length) (event : Event)
    (found : channel.sent[next]? = some event) :
    Lib.Broadcast.recv slots channel next = some (.event event,next + 1) := by
  rw [Lib.Broadcast.recv,if_neg within,found]

theorem recv_ending (next : Nat) (within : ¬next + slots < channel.sent.length) (past : channel.sent[next]? = none) :
    Lib.Broadcast.recv slots channel next = if channel.closed then some (.closed,next) else none := by
  rw [Lib.Broadcast.recv,if_neg within,past]

theorem recv_lagging (next : Nat) (behind : next + slots < channel.sent.length) :
    Lib.Broadcast.recv slots channel next =
      some (.lagged (channel.sent.length - slots - next),channel.sent.length - slots) :=
  if_pos behind

theorem drainBody_reads : Reads slots channel (drainBody slots channel) Except.ok (drainLast channel) where
  reading r within event found := by rw [drainBody,recv_reading slots channel r.next within event found]
  ending r within past := by
    rw [drainBody,recv_ending slots channel r.next within past,drainLast]
    cases channel.closed with
    | true => exact ⟨r.at r.next,rfl⟩
    | false => exact ⟨r,rfl⟩

theorem recvBody_reads :
    Reads slots channel (recvBody slots channel) (fun event => some (.ok event)) (recvLast channel) where
  reading r within event found := by rw [recvBody,recv_reading slots channel r.next within event found]
  ending r within past := by
    rw [recvBody,recv_ending slots channel r.next within past,recvLast]
    cases channel.closed with
    | true => exact ⟨r.at r.next,rfl⟩
    | false => exact ⟨r,rfl⟩

/-- Such a body gives the first of the events left that passes. -/
theorem iterate_reads {ρ : Type} (body : FilteredReceiver → FilteredReceiver ⊕ (ρ × FilteredReceiver))
    (found : Event → ρ) (last : ρ) (reads : Reads slots channel body found last) (events : List Event)
    (r : FilteredReceiver) (within : ¬Lags slots channel r) (left : channel.sent.drop r.next = events) (fuel : Nat)
    (enough : events.length < fuel) :
    (iterate body fuel r).map Prod.fst = some ((events.find? r.filter).elim last found) := by
  induction events generalizing r fuel with
  | nil =>
    obtain ⟨fuel,rfl⟩ : ∃ n, fuel = n + 1 := ⟨fuel - 1,by omega⟩
    have past : channel.sent[r.next]? = none := List.getElem?_eq_none_iff.mpr (List.drop_eq_nil_iff.mp left)
    obtain ⟨after,ended⟩ := reads.ending r within past
    rw [iterate,ended]
    rfl
  | cons event events ih =>
    rw [List.length_cons] at enough
    obtain ⟨fuel,rfl⟩ : ∃ n, fuel = n + 1 := ⟨fuel - 1,by omega⟩
    have here : channel.sent[r.next]? = some event := by rw [← List.head?_drop,left,List.head?_cons]
    rw [iterate,reads.reading r within event here,List.find?_cons]
    cases passes : r.filter event with
    | true => rfl
    | false =>
      have later : channel.sent.drop (r.next + 1) = events := by rw [← List.tail_drop,left,List.tail_cons]
      have still : ¬Lags slots channel (r.at (r.next + 1)) := by
        unfold Lags FilteredReceiver.at at *
        dsimp only
        omega
      exact ih (r.at (r.next + 1)) still later fuel (by omega)

theorem retained_within (r : FilteredReceiver) (within : ¬Lags slots channel r) :
    retained slots channel r = channel.sent.drop r.next := by
  unfold Lags at within
  rw [retained,Nat.max_eq_left (by omega)]

theorem length_drop_lt (next fuel : Nat) (enough : channel.sent.length < fuel) : (channel.sent.drop next).length < fuel := by
  rw [List.length_drop]
  omega

/-- `drain_until_match` reports every loss at once. -/
theorem drain_lagging (r : FilteredReceiver) (lags : Lags slots channel r) (fuel : Nat) :
    (drainUntilMatch slots channel (fuel + 1) r).map Prod.fst =
      some (.error (.lagged (channel.sent.length - slots - r.next))) := by
  rw [drainUntilMatch,iterate,drainBody,recv_lagging slots channel r.next lags]
  rfl

theorem drain_within (r : FilteredReceiver) (within : ¬Lags slots channel r) (fuel : Nat)
    (enough : channel.sent.length + 1 < fuel) :
    (drainUntilMatch slots channel fuel r).map Prod.fst =
      some ((firstMatch slots channel r).elim (drainLast channel) .ok) := by
  rw [firstMatch,retained_within slots channel r within]
  exact iterate_reads slots channel _ _ _ (drainBody_reads slots channel) _ r within rfl fuel
    (length_drop_lt channel r.next fuel (by omega))

/-- Unless a loss is an error, `recv` gives the first retained event that passes, lost events or not. -/
theorem recv_first (r : FilteredReceiver) (tolerant : r.lagStrategy ≠ .error) (fuel : Nat)
    (enough : channel.sent.length + 1 < fuel) :
    (recv slots channel fuel r).map Prod.fst =
      some ((firstMatch slots channel r).elim (recvLast channel) (fun event => some (.ok event))) := by
  by_cases lags : Lags slots channel r
  · obtain ⟨fuel,rfl⟩ : ∃ n, fuel = n + 1 := ⟨fuel - 1,by omega⟩
    have skipped : recvBody slots channel r = .inl (r.at (channel.sent.length - slots)) := by
      rw [recvBody,recv_lagging slots channel r.next lags]
      cases strategy : r.lagStrategy with
      | error => exact absurd strategy tolerant
      | skip => rfl
      | warn => rfl
    have oldest : retained slots channel r = channel.sent.drop (channel.sent.length - slots) := by
      unfold Lags at lags
      rw [retained,Nat.max_eq_right (by omega)]
    have within : ¬Lags slots channel (r.at (channel.sent.length - slots)) := by
      unfold Lags FilteredReceiver.at
      dsimp only
      omega
    rw [recv,iterate,skipped,firstMatch,oldest]
    exact iterate_reads slots channel _ _ _ (recvBody_reads slots channel) _ _ within rfl fuel
      (length_drop_lt channel _ fuel (by omega))
  · rw [firstMatch,retained_within slots channel r lags]
    exact iterate_reads slots channel _ _ _ (recvBody_reads slots channel) _ r lags rfl fuel
      (length_drop_lt channel r.next fuel (by omega))

/-- The other method that does not block reports no loss, unless a loss is an error. -/
theorem tryRecv_unlagged (r : FilteredReceiver) (tolerant : r.lagStrategy ≠ .error) (n : Nat) :
    (tryRecv slots channel r).1 ≠ .error (.lagged n) := by
  unfold tryRecv
  split
  · split
    · exact fun same => by cases same
    · exact fun same => by cases same
  · exact fun same => by cases same
  · exact fun same => by cases same
  · cases strategy : r.lagStrategy with
    | error => exact absurd strategy tolerant
    | skip => exact fun same => by cases same
    | warn => exact fun same => by cases same

/-- Where a loss is to be skipped, `drain_until_match` does as `recv` exactly if nothing has been lost. -/
theorem honoursLag_iff (r : FilteredReceiver) (tolerant : r.lagStrategy ≠ .error) :
    HonoursLag slots channel r ↔ ¬Lags slots channel r := by
  constructor
  · rintro ⟨outcome,returned,unlagged,_⟩ lags
    have lost := drain_lagging slots channel r lags (channel.sent.length + 1)
    rw [returned _ (Nat.lt_succ_self _),Option.some.injEq] at lost
    exact unlagged _ lost
  · intro within
    refine ⟨_,drain_within slots channel r within,?_,?_⟩
    · intro n
      cases firstMatch slots channel r with
      | some event => exact fun same => by cases same
      | none =>
        rw [Option.elim,drainLast]
        cases channel.closed with
        | true => exact fun same => by cases same
        | false => exact fun same => by cases same
    · intro event first
      refine ⟨by rw [first]; rfl,fun fuel enough => ?_⟩
      rw [recv_first slots channel r tolerant fuel enough,first]
      rfl

end

def skipping : FilteredReceiver := ⟨0,fun _ => true,.skip⟩

theorem honoursLag_within :
    skipping.lagStrategy ≠ .error ∧
      (HonoursLag 2 ⟨[.agentStarted "a1",.shutdown],false⟩ skipping ↔
        ¬Lags 2 ⟨[.agentStarted "a1",.shutdown],false⟩ skipping) :=
  ⟨fun same => (by cases same),honoursLag_iff 2 ⟨[.agentStarted "a1",.shutdown],false⟩ skipping (fun same => by cases same)⟩

/-- Three events in two slots: two are retained, and `recv` gives the first of them. -/
theorem drain_reports_loss :
    firstMatch 2 ⟨[.agentStarted "a1",.shutdown,.shutdown],false⟩ skipping = some .shutdown ∧
      (drainUntilMatch 2 ⟨[.agentStarted "a1",.shutdown,.shutdown],false⟩ 9 skipping).map Prod.fst =
        some (.error (.lagged 1)) ∧
      (recv 2 ⟨[.agentStarted "a1",.shutdown,.shutdown],false⟩ 9 skipping).map Prod.fst = some (some (.ok .shutdown)) ∧
      ¬HonoursLag 2 ⟨[.agentStarted "a1",.shutdown,.shutdown],false⟩ skipping := by
  refine ⟨rfl,rfl,rfl,?_⟩
  rintro ⟨outcome,returned,unlagged,_⟩
  have lost : some outcome = some (.error (.lagged 1)) := (returned 9 (by decide)).symm
  exact unlagged 1 (Option.some.inj lost)

end ClawKernel.Runtime.FilteredReceiver
