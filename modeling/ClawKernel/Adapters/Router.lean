import ClawKernel.Lib.Replies
import ClawKernel.Server.Channels

/-! The router that drops a message whose id it has routed within its ttl. Its table is swept
on some calls only; what it lets through is what a list of all that has passed would.
-/
namespace ClawKernel.Adapters.Router
open Lib.Replies Lib.Tables Lib.Window
open Server.Channels (ChannelMessage RoutingRule)

structure Message where
  id : String
  content : ChannelMessage

/-- Times are nanoseconds. -/
structure DeduplicatingRouter where
  inner : List RoutingRule
  seen : Table String Nat
  ttl : Nat
  callCount : Nat
  gcInterval : Nat

def usizeValues : Nat := 2 ^ 64

namespace DeduplicatingRouter

def new (inner : List RoutingRule) : DeduplicatingRouter := ⟨inner,∅,60000000000,0,64⟩

def withTtl (router : DeduplicatingRouter) (ttl : Nat) : DeduplicatingRouter := { router with ttl := ttl }

def withGcInterval (router : DeduplicatingRouter) (n : Nat) : DeduplicatingRouter := { router with gcInterval := n }

/-- The table a call looks in: every so many calls, only what is within the ttl. -/
def swept (router : DeduplicatingRouter) (now : Nat) : Table String Nat :=
  if router.callCount % router.gcInterval = 0 then recent router.ttl now router.seen else router.seen

/-- The remainder by an interval of zero panics, when the call is counted already. -/
def isDuplicate (router : DeduplicatingRouter) (now : Nat) (id : String) : DeduplicatingRouter × Option Bool :=
  let counted := { router with callCount := (router.callCount + 1) % usizeValues }
  if router.gcInterval = 0 then (counted,none)
  else if sighted router.ttl now (router.swept now) id then ({ counted with seen := router.swept now },some true)
  else ({ counted with seen := (router.swept now).insert id now },some false)

/-- A duplicate is dropped, and a panic (`none`) passes through. -/
def filtered {α : Type} (router : DeduplicatingRouter) (now : Nat) (id : String) (dropped : α)
    (forward : List RoutingRule → α) : DeduplicatingRouter × Option α :=
  match router.isDuplicate now id with
  | (router,none) => (router,none)
  | (router,some true) => (router,some dropped)
  | (router,some false) => (router,some (forward router.inner))

def route (router : DeduplicatingRouter) (now : Nat) (msg : Message) : DeduplicatingRouter × Option (Option String) :=
  router.filtered now msg.id none (fun rules => Server.Channels.route rules msg.content)

def broadcastRoute (router : DeduplicatingRouter) (now : Nat) (msg : Message) : DeduplicatingRouter × Option (List String) :=
  router.filtered now msg.id [] (fun rules => Server.Channels.broadcastRoute rules msg.content)

end DeduplicatingRouter

/-- Rules are changed through `inner`. -/
inductive Event where
  | tick (nanos : Nat)
  | addRule (rule : RoutingRule)
  | removeRulesForAgent (agentId : String)
  | route (msg : Message)
  | broadcastRoute (msg : Message)

def isCall : Event → Bool
  | .route _ => true
  | .broadcastRoute _ => true
  | _ => false

/-- What a call comes to: whether the message passes the filter, and what is returned. -/
inductive Reply where
  | done
  | panicked
  | routed (passes : Bool) (agent : Option String)
  | broadcast (passes : Bool) (agents : List String)
  deriving DecidableEq

def reply {α : Type} (made : Bool → α → Reply) (duplicate : Option Bool) (returned : Option α) : Reply :=
  match duplicate,returned with
  | some duplicate,some value => made (!duplicate) value
  | _,_ => .panicked

structure Timed where
  clock : Nat
  router : DeduplicatingRouter

def serve (s : Timed) : Event → Timed × Reply
  | .tick nanos => ({ s with clock := s.clock + nanos },.done)
  | .addRule rule =>
    ({ s with router := { s.router with inner := Server.Channels.addRule s.router.inner rule } },.done)
  | .removeRulesForAgent agentId =>
    ({ s with router := { s.router with inner := Server.Channels.removeRulesForAgent s.router.inner agentId } },.done)
  | .route msg =>
    ({ s with router := (s.router.route s.clock msg).1 },
      reply .routed (s.router.isDuplicate s.clock msg.id).2 (s.router.route s.clock msg).2)
  | .broadcastRoute msg =>
    ({ s with router := (s.router.broadcastRoute s.clock msg).1 },
      reply .broadcast (s.router.isDuplicate s.clock msg.id).2 (s.router.broadcastRoute s.clock msg).2)

/-- A router with this ttl and interval that has seen nothing. -/
def fresh (rules : List RoutingRule) (ttl gcInterval clock : Nat) : Timed :=
  ⟨clock,((DeduplicatingRouter.new rules).withTtl ttl).withGcInterval gcInterval⟩

/-- The abstract filter: all that has passed, with the time at which it did. -/
structure Ledger where
  clock : Nat
  rules : List RoutingRule
  passed : List (String × Nat)

namespace Ledger

/-- No message with the id has passed within the preceding ttl. -/
def Admits (ttl : Nat) (ledger : Ledger) (id : String) : Prop :=
  ∀ entry ∈ ledger.passed, entry.1 = id → ttl ≤ ledger.clock - entry.2

instance (ttl : Nat) (ledger : Ledger) (id : String) : Decidable (ledger.Admits ttl id) := List.decidableBAll _ _

def pass (ledger : Ledger) (id : String) : Ledger := { ledger with passed := (id,ledger.clock) :: ledger.passed }

def call {α : Type} (ttl : Nat) (ledger : Ledger) (id : String) (made : Bool → α → Reply) (dropped : α)
    (forward : List RoutingRule → α) : Ledger × Reply :=
  if ledger.Admits ttl id then (ledger.pass id,made true (forward ledger.rules)) else (ledger,made false dropped)

def serve (ttl : Nat) (ledger : Ledger) : Event → Ledger × Reply
  | .tick nanos => ({ ledger with clock := ledger.clock + nanos },.done)
  | .addRule rule => ({ ledger with rules := Server.Channels.addRule ledger.rules rule },.done)
  | .removeRulesForAgent agentId =>
    ({ ledger with rules := Server.Channels.removeRulesForAgent ledger.rules agentId },.done)
  | .route msg =>
    ledger.call ttl msg.id .routed none (fun rules => Server.Channels.route rules msg.content)
  | .broadcastRoute msg =>
    ledger.call ttl msg.id .broadcast [] (fun rules => Server.Channels.broadcastRoute rules msg.content)

end Ledger

/-- What the router knows of the ledger. -/
structure Refines (ttl gcInterval : Nat) (s : Timed) (ledger : Ledger) : Prop where
  seen : Tracks ttl ledger.clock s.router.seen (fun id t => (id,t) ∈ ledger.passed)
  clock : s.clock = ledger.clock
  rules : s.router.inner = ledger.rules
  window : s.router.ttl = ttl
  interval : s.router.gcInterval = gcInterval

theorem not_admits_iff (ttl : Nat) (ledger : Ledger) (id : String) :
    ¬ledger.Admits ttl id ↔ ∃ t, (id,t) ∈ ledger.passed ∧ ledger.clock - t < ttl := by
  unfold Ledger.Admits
  push Not
  constructor
  · rintro ⟨⟨_,t⟩,member,rfl,within⟩
    exact ⟨t,member,within⟩
  · rintro ⟨t,member,within⟩
    exact ⟨(id,t),member,rfl,within⟩

section Simulation
variable (ttl gcInterval : Nat) (s : Timed) (ledger : Ledger) (refines : Refines ttl gcInterval s ledger)
include refines

/-- A sweep leaves what is within the ttl. -/
theorem swept_tracks : Tracks ttl ledger.clock (s.router.swept s.clock) (fun id t => (id,t) ∈ ledger.passed) := by
  unfold DeduplicatingRouter.swept
  split
  · rw [refines.window,refines.clock]
    exact tracks_recent ttl ledger.clock s.router.seen _ refines.seen
  · exact refines.seen

theorem isDuplicate_panics (id : String) (zero : gcInterval = 0) : (s.router.isDuplicate s.clock id).2 = none := by
  have interval : s.router.gcInterval = 0 := refines.interval.trans zero
  rw [DeduplicatingRouter.isDuplicate,if_pos interval]

/-- What a call finds in the table the ledger says, whether the call sweeps or not. -/
theorem isDuplicate_refines (id : String) (positive : gcInterval ≠ 0) :
    (s.router.isDuplicate s.clock id).2 = some (!decide (ledger.Admits ttl id)) ∧
      Refines ttl gcInterval { s with router := (s.router.isDuplicate s.clock id).1 }
        (if ledger.Admits ttl id then ledger.pass id else ledger) := by
  have interval : s.router.gcInterval ≠ 0 := refines.interval ▸ positive
  have tracks := swept_tracks ttl gcInterval s ledger refines
  have found : sighted s.router.ttl s.clock (s.router.swept s.clock) id = true ↔ ¬ledger.Admits ttl id := by
    rw [refines.window,refines.clock]
    rw [refines.clock] at tracks
    exact (sighted_iff ttl ledger.clock _ _ tracks id).trans (not_admits_iff ttl ledger id).symm
  rw [DeduplicatingRouter.isDuplicate,if_neg interval]
  by_cases admits : ledger.Admits ttl id
  · rw [if_neg (fun sees => found.mp sees admits),if_pos admits,decide_eq_true admits]
    have unseen := fun within => (not_admits_iff ttl ledger id).mpr within admits
    have noted : Tracks ttl ledger.clock ((s.router.swept s.clock).insert id s.clock)
        (fun other t => (other,t) ∈ (ledger.pass id).passed) := by
      rw [refines.clock] at tracks ⊢
      apply tracks_congr ttl ledger.clock _ _ (tracks_insert ttl ledger.clock _ _ tracks id unseen)
      intro other t
      rw [Ledger.pass,List.mem_cons,Prod.mk.injEq,or_comm]
    exact ⟨rfl,noted,refines.clock,refines.rules,refines.window,refines.interval⟩
  · rw [if_pos (found.mpr admits),if_neg admits,decide_eq_false admits]
    exact ⟨rfl,tracks,refines.clock,refines.rules,refines.window,refines.interval⟩

section Calls
variable {α : Type} (id : String) (made : Bool → α → Reply) (dropped : α) (forward : List RoutingRule → α)

theorem call_refines (positive : gcInterval ≠ 0) :
    Refines ttl gcInterval { s with router := (s.router.filtered s.clock id dropped forward).1 }
        (ledger.call ttl id made dropped forward).1 ∧
      reply made (s.router.isDuplicate s.clock id).2 (s.router.filtered s.clock id dropped forward).2 =
        (ledger.call ttl id made dropped forward).2 := by
  obtain ⟨found,kept⟩ := isDuplicate_refines ttl gcInterval s ledger refines id positive
  have rules := kept.rules
  generalize called : s.router.isDuplicate s.clock id = outcome at found kept rules
  obtain ⟨router,duplicate⟩ := outcome
  have rules : router.inner = _ := rules
  have found : duplicate = _ := found
  rw [DeduplicatingRouter.filtered,called,found,Ledger.call]
  by_cases admits : ledger.Admits ttl id
  · rw [if_pos admits] at kept rules ⊢
    rw [decide_eq_true admits]
    exact ⟨kept,congrArg (fun rules => made true (forward rules)) rules⟩
  · rw [if_neg admits] at kept ⊢
    rw [decide_eq_false admits]
    exact ⟨kept,rfl⟩

theorem call_same_iff (panics : ∀ passes value, made passes value ≠ .panicked) :
    reply made (s.router.isDuplicate s.clock id).2 (s.router.filtered s.clock id dropped forward).2 =
      (ledger.call ttl id made dropped forward).2 ↔ gcInterval ≠ 0 := by
  constructor
  · intro same zero
    rw [isDuplicate_panics ttl gcInterval s ledger refines id zero,Ledger.call] at same
    split at same
    · exact panics _ _ same.symm
    · exact panics _ _ same.symm
  · exact fun positive => (call_refines ttl gcInterval s ledger refines id made dropped forward positive).2

end Calls

/-- The condition on an event: a call needs an interval other than zero. -/
theorem serve_same_iff (event : Event) :
    (serve s event).2 = (ledger.serve ttl event).2 ↔ (isCall event = true → gcInterval ≠ 0) := by
  cases event with
  | route msg =>
    have same := call_same_iff ttl gcInterval s ledger refines msg.id Reply.routed none
      (fun rules => Server.Channels.route rules msg.content) (fun _ _ clash => by cases clash)
    exact same.trans ⟨fun positive _ => positive,fun meets => meets rfl⟩
  | broadcastRoute msg =>
    have same := call_same_iff ttl gcInterval s ledger refines msg.id Reply.broadcast []
      (fun rules => Server.Channels.broadcastRoute rules msg.content) (fun _ _ clash => by cases clash)
    exact same.trans ⟨fun positive _ => positive,fun meets => meets rfl⟩
  | _ => exact ⟨fun _ clash => absurd clash Bool.false_ne_true,fun _ => rfl⟩

theorem serve_refines (event : Event) (meets : isCall event = true → gcInterval ≠ 0) :
    Refines ttl gcInterval (serve s event).1 (ledger.serve ttl event).1 := by
  cases event with
  | tick nanos =>
    have later := tracks_later ttl ledger.clock s.router.seen _ refines.seen (ledger.clock + nanos) (Nat.le_add_right _ _)
    exact ⟨later,congrArg (· + nanos) refines.clock,refines.rules,refines.window,refines.interval⟩
  | addRule rule =>
    have rules := congrArg (fun rules => Server.Channels.addRule rules rule) refines.rules
    exact ⟨refines.seen,refines.clock,rules,refines.window,refines.interval⟩
  | removeRulesForAgent agentId =>
    have rules := congrArg (fun rules => Server.Channels.removeRulesForAgent rules agentId) refines.rules
    exact ⟨refines.seen,refines.clock,rules,refines.window,refines.interval⟩
  | route msg => exact (call_refines ttl gcInterval s ledger refines msg.id _ _ _ (meets rfl)).1
  | broadcastRoute msg => exact (call_refines ttl gcInterval s ledger refines msg.id _ _ _ (meets rfl)).1

end Simulation

theorem fresh_refines (rules : List RoutingRule) (ttl gcInterval clock : Nat) :
    Refines ttl gcInterval (fresh rules ttl gcInterval clock) ⟨clock,rules,[]⟩ := by
  refine ⟨?_,rfl,rfl,rfl,rfl⟩
  apply tracks_congr ttl clock _ _ (tracks_empty ttl clock)
  exact fun _ _ => iff_of_false List.not_mem_nil (fun never => never)

/-- The router answers every call as the ledger does, whatever its interval, exactly if the
interval is not zero or nothing is called. -/
theorem deduplicates_iff (rules : List RoutingRule) (ttl gcInterval clock : Nat) (events : List Event) :
    replies serve (fresh rules ttl gcInterval clock) events = replies (Ledger.serve ttl) ⟨clock,rules,[]⟩ events ↔
      gcInterval ≠ 0 ∨ ∀ event ∈ events, isCall event = false := by
  have same := replies_eq_iff serve (Ledger.serve ttl) (Refines ttl gcInterval)
    (fun event => isCall event = true → gcInterval ≠ 0)
    (fun s ledger event refines meets => serve_refines ttl gcInterval s ledger refines event meets)
    (fun s ledger event refines => serve_same_iff ttl gcInterval s ledger refines event)
    (fresh rules ttl gcInterval clock) ⟨clock,rules,[]⟩ events (fresh_refines rules ttl gcInterval clock)
  rw [same]
  by_cases positive : gcInterval ≠ 0
  · exact iff_of_true (fun _ _ _ => positive) (Or.inl positive)
  · have each (event : Event) : (isCall event = true → gcInterval ≠ 0) ↔ isCall event = false :=
      ⟨fun meets => Bool.eq_false_iff.mpr (fun called => positive (meets called)),
        fun quiet called => absurd (called.symm.trans quiet) (Bool.false_ne_true ∘ Eq.symm)⟩
    rw [or_iff_right positive]
    exact forall₂_congr (fun event _ => each event)

def greeting : Message := ⟨"m",⟨"c",none,none,"hello"⟩⟩

theorem interval_zero_panics :
    replies serve (fresh [.default "a"] 60000000000 0 0) [.route greeting] = [.panicked] ∧
      replies serve (fresh [.default "a"] 60000000000 0 0) [.route greeting] ≠
        replies (Ledger.serve 60000000000) ⟨0,[.default "a"],[]⟩ [.route greeting] :=
  ⟨rfl,by decide⟩

end ClawKernel.Adapters.Router
