import Mathlib.Logic.Function.Basic
import ClawKernel.Lib.Json
import ClawKernel.Lib.Runs
import ClawKernel.Lib.Tables

/-! The subscribers of the hot loader and their notify queues. A reload notification is tried
on every queue in turn, and a subscriber on whose queue it fails is removed.
-/
namespace ClawKernel.Server.Subscriptions
open Lib.Json Lib.Runs Lib.Tables

/-- `isOpen` as long as the receiver is there. -/
structure NotifyQueue where
  capacity : Nat
  messages : List Value
  isOpen : Bool

inductive TrySendError where
  | full
  | closed
  deriving DecidableEq, Repr

def NotifyQueue.trySend (queue : NotifyQueue) (msg : Value) : NotifyQueue × Except TrySendError Unit :=
  if queue.isOpen = false then (queue,.error .closed)
  else if queue.capacity ≤ queue.messages.length then (queue,.error .full)
  else ({ queue with messages := queue.messages ++ [msg] },.ok ())

/-- A subscriber is the number of a connection with that of the queue it sends to. -/
structure HotLoader where
  subscribers : Table Nat Nat
  queues : Nat → NotifyQueue

def reloadNotification (path : String) : Value :=
  .object [("jsonrpc",.string "2.0"),("method",.string "tool/hot_reloaded"),("params",.object [("path",.string path)])]

/-- The queues after the message is tried on those of the subscribers, and the connections for
which it fails. -/
def trySendAll (msg : Value) : List (Sigma (fun _ : Nat => Nat)) → (Nat → NotifyQueue) → (Nat → NotifyQueue) × List Nat
  | [], queues => (queues,[])
  | ⟨conn,q⟩ :: rest, queues =>
    let last := trySendAll msg rest (Function.update queues q ((queues q).trySend msg).1)
    match ((queues q).trySend msg).2 with
    | .error _ => (last.1,conn :: last.2)
    | .ok _ => last

def sendReloadNotification (s : HotLoader) (path : String) : HotLoader :=
  let sent := trySendAll (reloadNotification path) s.subscribers.entries s.queues
  ⟨eraseAll sent.2 s.subscribers,sent.1⟩

def subscribeConn (s : HotLoader) (conn q : Nat) : HotLoader := { s with subscribers := s.subscribers.insert conn q }

def unsubscribe (s : HotLoader) (conn : Nat) : HotLoader := { s with subscribers := s.subscribers.erase conn }

/-- `notify` is a message that something else sends to a queue; `receive` and `close` are what
the connection does at its end. -/
inductive Event where
  | subscribeConn (conn q : Nat)
  | unsubscribe (conn : Nat)
  | sendReloadNotification (path : String)
  | notify (q : Nat) (msg : Value)
  | receive (q : Nat)
  | close (q : Nat)

/-- The hot loader, and the subscriptions asked for and not given up. -/
structure Watched where
  loader : HotLoader
  asked : Table Nat Nat

def onQueue (s : Watched) (q : Nat) (change : NotifyQueue → NotifyQueue) : Watched :=
  { s with loader := { s.loader with queues := Function.update s.loader.queues q (change (s.loader.queues q)) } }

def step (s : Watched) : Event → Watched
  | .subscribeConn conn q => ⟨subscribeConn s.loader conn q,s.asked.insert conn q⟩
  | .unsubscribe conn => ⟨unsubscribe s.loader conn,s.asked.erase conn⟩
  | .sendReloadNotification path => { s with loader := sendReloadNotification s.loader path }
  | .notify q msg => onQueue s q (fun queue => (queue.trySend msg).1)
  | .receive q => onQueue s q (fun queue => { queue with messages := queue.messages.tail })
  | .close q => onQueue s q (fun queue => { queue with isOpen := false })

def start (queues : Nat → NotifyQueue) : Watched := ⟨⟨∅,queues⟩,∅⟩

/-- A connection whose receiver is open is subscribed exactly as it asked. -/
def Kept (s : Watched) : Prop :=
  ∀ conn q, (s.loader.queues q).isOpen = true → (s.loader.subscribers.lookup conn = some q ↔ s.asked.lookup conn = some q)

/-- A notification leaves no subscriber whose receiver is closed. -/
def Pruned (s : Watched) (event : Event) : Prop :=
  ∀ path, event = .sendReloadNotification path → ∀ conn q, (step s event).loader.subscribers.lookup conn = some q →
    ((step s event).loader.queues q).isOpen = true

/-- How many of the subscribers send to a queue. -/
def senders (entries : List (Sigma (fun _ : Nat => Nat))) (q : Nat) : Nat := entries.countP (fun entry => entry.2 = q)

/-- Every open queue has room for what its subscribers are sent. -/
def Fits (entries : List (Sigma (fun _ : Nat => Nat))) (queues : Nat → NotifyQueue) : Prop :=
  ∀ q, (queues q).isOpen = true → 0 < senders entries q → (queues q).messages.length + senders entries q ≤ (queues q).capacity

def HasRoom (s : Watched) (event : Event) : Prop :=
  ∀ path, event = .sendReloadNotification path → Fits s.loader.subscribers.entries s.loader.queues

section Queues
variable (queue : NotifyQueue) (msg : Value)

theorem trySend_isOpen : (queue.trySend msg).1.isOpen = queue.isOpen := by
  unfold NotifyQueue.trySend
  split
  · rfl
  · split
    · rfl
    · rfl

theorem trySend_closed (closed : queue.isOpen = false) : queue.trySend msg = (queue,.error .closed) :=
  if_pos closed

theorem trySend_full (opened : queue.isOpen = true) (full : queue.capacity ≤ queue.messages.length) :
    queue.trySend msg = (queue,.error .full) := by
  rw [NotifyQueue.trySend,if_neg (Bool.not_eq_false _ ▸ opened),if_pos full]

theorem trySend_room (opened : queue.isOpen = true) (room : queue.messages.length < queue.capacity) :
    queue.trySend msg = ({ queue with messages := queue.messages ++ [msg] },.ok ()) := by
  rw [NotifyQueue.trySend,if_neg (Bool.not_eq_false _ ▸ opened),if_neg (Nat.not_le.mpr room)]

end Queues

section Notification
variable (msg : Value)

theorem update_isOpen (queues : Nat → NotifyQueue) (q other : Nat) :
    (Function.update queues q ((queues q).trySend msg).1 other).isOpen = (queues other).isOpen := by
  by_cases same : other = q
  · rw [same,Function.update_self]
    exact trySend_isOpen (queues q) msg
  · rw [Function.update_of_ne same]

theorem trySendAll_isOpen (entries : List (Sigma (fun _ : Nat => Nat))) (queues : Nat → NotifyQueue) (q : Nat) :
    ((trySendAll msg entries queues).1 q).isOpen = (queues q).isOpen := by
  induction entries generalizing queues with
  | nil => rfl
  | cons entry rest ih =>
    have later := (ih (Function.update queues entry.2 ((queues entry.2).trySend msg).1)).trans
      (update_isOpen msg queues entry.2 q)
    rw [trySendAll]
    split
    · exact later
    · exact later

/-- Which connections fail: that of the entry where its send does, and those of the rest. -/
theorem mem_dead_cons (conn q : Nat) (rest : List (Sigma (fun _ : Nat => Nat))) (queues : Nat → NotifyQueue) (other : Nat) :
    other ∈ (trySendAll msg (⟨conn,q⟩ :: rest) queues).2 ↔
      other = conn ∧ ((queues q).trySend msg).2 ≠ .ok () ∨
        other ∈ (trySendAll msg rest (Function.update queues q ((queues q).trySend msg).1)).2 := by
  rw [trySendAll]
  split
  · rename_i e failed
    have ne : ((queues q).trySend msg).2 ≠ .ok () := fun sent => by rw [failed] at sent; cases sent
    rw [List.mem_cons,and_iff_left ne]
  · rename_i sent
    rw [sent]
    exact (or_iff_right (fun failed => failed.2 rfl)).symm

theorem dead_entry (entries : List (Sigma (fun _ : Nat => Nat))) (queues : Nat → NotifyQueue) (conn : Nat)
    (dead : conn ∈ (trySendAll msg entries queues).2) : conn ∈ entries.keys := by
  induction entries generalizing queues with
  | nil => cases dead
  | cons entry rest ih =>
    rw [List.keys_cons,List.mem_cons]
    exact ((mem_dead_cons msg entry.1 entry.2 rest queues conn).mp dead).imp And.left (ih _)

theorem closed_dead (entries : List (Sigma (fun _ : Nat => Nat))) (queues : Nat → NotifyQueue) (conn q : Nat)
    (member : ⟨conn,q⟩ ∈ entries) (closed : (queues q).isOpen = false) : conn ∈ (trySendAll msg entries queues).2 := by
  induction entries generalizing queues with
  | nil => cases member
  | cons entry rest ih =>
    apply (mem_dead_cons msg entry.1 entry.2 rest queues conn).mpr
    rcases List.mem_cons.mp member with same | later
    · left
      rw [← same]
      refine ⟨rfl,?_⟩
      rw [trySend_closed (queues q) msg closed]
      exact fun clash => by cases clash
    · exact Or.inr (ih _ later ((update_isOpen msg queues entry.2 q).trans closed))

/-- The first send of a round takes one place of its queue. -/
theorem fits_cons (conn q : Nat) (rest : List (Sigma (fun _ : Nat => Nat))) (queues : Nat → NotifyQueue) :
    Fits (⟨conn,q⟩ :: rest) queues ↔
      ((queues q).isOpen = true → ((queues q).trySend msg).2 = .ok ()) ∧
        Fits rest (Function.update queues q ((queues q).trySend msg).1) := by
  have own : senders (⟨conn,q⟩ :: rest) q = senders rest q + 1 := List.countP_cons_of_pos (decide_eq_true rfl)
  have others (other : Nat) (apart : other ≠ q) : senders (⟨conn,q⟩ :: rest) other = senders rest other :=
    List.countP_cons_of_neg (fun same => apart (of_decide_eq_true same).symm)
  cases opened : (queues q).isOpen with
  | false =>
    rw [trySend_closed (queues q) msg opened,Function.update_eq_self]
    rw [and_iff_right (fun clash => absurd clash Bool.false_ne_true)]
    apply forall_congr'
    intro other
    by_cases same : other = q
    · rw [same,opened]
      exact iff_of_true (fun clash => absurd clash Bool.false_ne_true) (fun clash => absurd clash Bool.false_ne_true)
    · rw [others other same]
  | true =>
    by_cases full : (queues q).capacity ≤ (queues q).messages.length
    · rw [trySend_full (queues q) msg opened full]
      refine iff_of_false (fun fits => ?_) (fun both => by cases both.1 rfl)
      have bound := fits q opened (own ▸ Nat.succ_pos _)
      omega
    · rw [trySend_room (queues q) msg opened (Nat.not_le.mp full),and_iff_right (fun _ => rfl)]
      apply forall_congr'
      intro other
      by_cases same : other = q
      · rw [same,own,Function.update_self,opened,List.length_append]
        simp only [List.length_cons,List.length_nil,forall_const]
        omega
      · rw [others other same,Function.update_of_ne same]

/-- No open receiver's send fails exactly if the queues fit what they are sent. -/
theorem open_sent_iff_fits (entries : List (Sigma (fun _ : Nat => Nat))) (distinct : entries.NodupKeys)
    (queues : Nat → NotifyQueue) :
    (∀ conn q, ⟨conn,q⟩ ∈ entries → (queues q).isOpen = true → conn ∉ (trySendAll msg entries queues).2) ↔
      Fits entries queues := by
  induction entries generalizing queues with
  | nil => exact iff_of_true (fun _ _ member => by cases member) (fun _ _ none => absurd none (Nat.lt_irrefl 0))
  | cons entry rest ih =>
    obtain ⟨conn,q⟩ := entry
    obtain ⟨fresh,apart⟩ := List.nodupKeys_cons.mp distinct
    have later := ih apart (Function.update queues q ((queues q).trySend msg).1)
    rw [fits_cons msg conn q rest queues,← later]
    constructor
    · intro sent
      refine ⟨fun opened => ?_,fun other q' member opened dead => ?_⟩
      · by_contra failed
        exact sent conn q List.mem_cons_self opened ((mem_dead_cons msg conn q rest queues conn).mpr (Or.inl ⟨rfl,failed⟩))
      · rw [update_isOpen] at opened
        exact sent other q' (List.mem_cons_of_mem _ member) opened
          ((mem_dead_cons msg conn q rest queues other).mpr (Or.inr dead))
    · rintro ⟨first,rest'⟩ other q' member opened dead
      rcases (mem_dead_cons msg conn q rest queues other).mp dead with ⟨same,failed⟩ | dead
      · rcases List.mem_cons.mp member with entry | later
        · cases entry
          exact failed (first opened)
        · have key : other ∈ rest.keys := List.mem_keys_of_mem later
          exact fresh (same ▸ key)
      · rcases List.mem_cons.mp member with entry | later
        · cases entry
          exact fresh (dead_entry msg rest _ conn dead)
        · exact rest' other q' later ((update_isOpen msg queues q q').trans opened) dead

end Notification

section Steps
variable (s : Watched)

theorem reload_lookup (path : String) (conn q : Nat) :
    (sendReloadNotification s.loader path).subscribers.lookup conn = some q ↔
      conn ∉ (trySendAll (reloadNotification path) s.loader.subscribers.entries s.loader.queues).2 ∧
        s.loader.subscribers.lookup conn = some q := by
  change (eraseAll _ s.loader.subscribers).lookup conn = some q ↔ _
  rw [lookup_eraseAll]
  split
  · rename_i dead
    exact iff_of_false (fun clash => by cases clash) (fun both => both.1 dead)
  · rename_i alive
    exact (and_iff_right alive).symm

theorem reload_isOpen (path : String) (q : Nat) :
    ((sendReloadNotification s.loader path).queues q).isOpen = (s.loader.queues q).isOpen :=
  trySendAll_isOpen (reloadNotification path) s.loader.subscribers.entries s.loader.queues q

theorem kept_reload_iff (path : String) (kept : Kept s) :
    Kept (step s (.sendReloadNotification path)) ↔ HasRoom s (.sendReloadNotification path) := by
  have fits := open_sent_iff_fits (reloadNotification path) s.loader.subscribers.entries s.loader.subscribers.nodupKeys
    s.loader.queues
  have room : HasRoom s (.sendReloadNotification path) ↔ Fits s.loader.subscribers.entries s.loader.queues :=
    ⟨fun room => room path rfl,fun fits other _ => fits⟩
  rw [room,← fits]
  constructor
  · intro after conn q member opened
    have before := (entry_iff s.loader.subscribers conn q).mp member
    have asked := (kept conn q opened).mp before
    exact ((reload_lookup s path conn q).mp ((after conn q ((reload_isOpen s path q).trans opened)).mpr asked)).1
  · intro sent conn q opened
    have opened := (reload_isOpen s path q).symm.trans opened
    refine Iff.trans ?_ (kept conn q opened)
    apply (reload_lookup s path conn q).trans
    apply and_iff_right_of_imp
    exact fun before => sent conn q ((entry_iff s.loader.subscribers conn q).mpr before) opened

theorem onQueue_kept (q : Nat) (change : NotifyQueue → NotifyQueue)
    (closes : ∀ queue, (change queue).isOpen = true → queue.isOpen = true) (kept : Kept s) : Kept (onQueue s q change) := by
  intro conn other opened
  apply kept conn other
  by_cases same : other = q
  · subst same
    apply closes
    change (Function.update s.loader.queues other (change (s.loader.queues other)) other).isOpen = true at opened
    rw [Function.update_self] at opened
    exact opened
  · change (Function.update s.loader.queues q (change (s.loader.queues q)) other).isOpen = true at opened
    rw [Function.update_of_ne same] at opened
    exact opened

theorem kept_step_iff (event : Event) (kept : Kept s) : Kept (step s event) ↔ HasRoom s event := by
  have quiet (other : ∀ path, event ≠ .sendReloadNotification path) : HasRoom s event :=
    fun path same => absurd same (other path)
  cases event with
  | sendReloadNotification path => exact kept_reload_iff s path kept
  | subscribeConn conn q =>
    refine iff_of_true (fun other q' opened => ?_) (quiet (fun _ clash => by cases clash))
    change (s.loader.subscribers.insert conn q).lookup other = some q' ↔ (s.asked.insert conn q).lookup other = some q'
    rw [lookup_insert_if,lookup_insert_if]
    split
    · rfl
    · exact kept other q' opened
  | unsubscribe conn =>
    refine iff_of_true (fun other q' opened => ?_) (quiet (fun _ clash => by cases clash))
    change (s.loader.subscribers.erase conn).lookup other = some q' ↔ (s.asked.erase conn).lookup other = some q'
    rw [lookup_erase_if,lookup_erase_if]
    split
    · rfl
    · exact kept other q' opened
  | notify q msg =>
    have closes (queue : NotifyQueue) (opened : (queue.trySend msg).1.isOpen = true) : queue.isOpen = true :=
      (trySend_isOpen queue msg).symm.trans opened
    exact iff_of_true (onQueue_kept s q _ closes kept) (quiet (fun _ clash => by cases clash))
  | receive q =>
    exact iff_of_true (onQueue_kept s q _ (fun _ opened => opened) kept) (quiet (fun _ clash => by cases clash))
  | close q =>
    exact iff_of_true (onQueue_kept s q _ (fun _ clash => absurd clash Bool.false_ne_true) kept)
      (quiet (fun _ clash => by cases clash))

/-- Whoever is subscribed after a notification was sent it. -/
theorem pruned_step (event : Event) : Pruned s event := by
  rintro path rfl conn q found
  obtain ⟨alive,before⟩ := (reload_lookup s path conn q).mp found
  apply (reload_isOpen s path q).trans
  by_contra closed
  have member := (entry_iff s.loader.subscribers conn q).mpr before
  exact alive (closed_dead (reloadNotification path) _ _ conn q member (Bool.not_eq_true _ ▸ closed))

end Steps

theorem start_kept (queues : Nat → NotifyQueue) : Kept (start queues) := fun _ _ _ => Iff.rfl

/-- The subscribers with open receivers are those that asked, and closed ones are removed by
every notification, exactly if no notification finds the queue of an open receiver full. -/
theorem subscriptions_kept_iff (queues : Nat → NotifyQueue) (events : List Event) :
    (Always step Kept (start queues) events ∧ Along step Pruned (start queues) events) ↔
      Along step HasRoom (start queues) events := by
  apply always_along_iff step HasRoom Pruned Kept
  · exact fun s event kept => (and_iff_left (pruned_step s event)).trans (kept_step_iff s event kept)
  · exact start_kept queues

/-- A burst of one change more than the queue holds, before the connection reads any. -/
def burst (capacity : Nat) : List Event :=
  .subscribeConn 0 0 :: List.replicate (capacity + 1) (.sendReloadNotification "tools/a.lua")

theorem burst_unsubscribes :
    ((run step (start (fun _ => ⟨100,[],true⟩)) (burst 100)).loader.queues 0).isOpen = true ∧
      (run step (start (fun _ => ⟨100,[],true⟩)) (burst 100)).asked.lookup 0 = some 0 ∧
      (run step (start (fun _ => ⟨100,[],true⟩)) (burst 100)).loader.subscribers.lookup 0 = none := by
  decide +kernel

end ClawKernel.Server.Subscriptions
