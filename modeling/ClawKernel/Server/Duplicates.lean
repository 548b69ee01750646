import ClawKernel.Server.Agents
import ClawKernel.Server.Conversations

/-! Which inbound messages are answered as duplicates. The id is noted before the message is
routed, in one table for both methods and all channels.
-/
namespace ClawKernel.Server.Duplicates
open Lib.Json Lib.Runs Lib.Tables Lib.Window Server.Protocol Server.Channels
open Server.Conversations (serve settle origins content)

def messageId : Event → Option String
  | .inbound params => params.messageId
  | .broadcast params => params.messageId
  | _ => none

def channelId : Event → Option String
  | .inbound params => some params.channelId
  | .broadcast params => some params.channelId
  | _ => none

section Replies
variable (uuid : Nat → String)

def reply (s : Hub) : Event → Option (Except ServerError Value)
  | .inbound params => some (handleChannelInbound uuid s params).2
  | .broadcast params => some (handleChannelBroadcast uuid s params).2
  | _ => none

def AnsweredDuplicate (s : Hub) (event : Event) : Prop := reply uuid s event = some (.ok duplicateReply)

/-- The message was accepted, or dispatched to an agent at least. -/
def Processed (s : Hub) (event : Event) : Prop :=
  (∃ id, reply uuid s event = some (.ok (.object [("session_id",.string id),("status",.string "accepted")]))) ∨
    ∃ agentId rest, reply uuid s event = some (.ok (dispatched (agentId :: rest)))

/-- A message of the same channel with the same id was processed less than a minute before. -/
def ProcessedBefore (start : Hub) (before : List Event) (event : Event) : Prop :=
  Occurred (step uuid) (fun s earlier => channelId earlier = channelId event ∧ messageId earlier = messageId event ∧
    (run (step uuid) start before).now - s.now < 60000 ∧ Processed uuid s earlier) start before

theorem dispatchInbound_reply (s : Hub) (params : ChannelInboundParams) :
    (dispatchInbound uuid s params).2 ≠ .ok duplicateReply := by
  unfold dispatchInbound
  cases route s.router params.message with
  | none => exact nofun
  | some agentId =>
    dsimp only
    cases getOrCreateInboundSession uuid s params.threadId with
    | mk next result =>
      cases result with
      | error error => exact nofun
      | ok session =>
        intro same
        have members := Value.object.inj (Except.ok.inj same)
        exact absurd (Prod.mk.inj (List.cons.inj members).1).1 (by decide)

theorem dispatchBroadcast_reply (s : Hub) (params : ChannelBroadcastParams) :
    (dispatchBroadcast uuid s params).2 ≠ .ok duplicateReply := by
  unfold dispatchBroadcast
  dsimp only
  split
  · exact nofun
  · intro same
    have members := Value.object.inj (Except.ok.inj same)
    exact absurd (Prod.mk.inj (List.cons.inj members).1).1 (by decide)

theorem checked_reply_iff (seen : Bool) (s : Hub) (next : Hub × Except ServerError Value)
    (fresh : next.2 ≠ .ok duplicateReply) :
    (if seen then (s,.ok duplicateReply) else next).2 = .ok duplicateReply ↔ seen = true := by
  cases seen with
  | true => exact ⟨fun _ => rfl,fun _ => rfl⟩
  | false => exact ⟨fun same => absurd same fresh,nofun⟩

theorem dedupCheck_iff (s : Hub) (messageId : Option String) :
    (dedupCheck s messageId).2 = true ↔
      ∃ id, messageId = some id ∧ (observe 60000 s.now s.registry.seenIds id).1 = true := by
  cases messageId with
  | none => exact ⟨nofun,fun ⟨_,missing,_⟩ => nomatch missing⟩
  | some own =>
    constructor
    · exact fun seen => ⟨own,rfl,seen⟩
    · rintro ⟨_,same,seen⟩
      cases same
      exact seen

/-- Only the check answers a message as a duplicate. -/
theorem answeredDuplicate_iff (s : Hub) (event : Event) :
    AnsweredDuplicate uuid s event ↔
      ∃ id, messageId event = some id ∧ (observe 60000 s.now s.registry.seenIds id).1 = true := by
  cases event with
  | inbound params =>
    refine Iff.trans ?_ (dedupCheck_iff s params.messageId)
    change some (handleChannelInbound uuid s params).2 = some (.ok duplicateReply) ↔ _
    rw [Option.some_inj]
    exact checked_reply_iff _ _ _ (dispatchInbound_reply uuid _ params)
  | broadcast params =>
    refine Iff.trans ?_ (dedupCheck_iff s params.messageId)
    change some (handleChannelBroadcast uuid s params).2 = some (.ok duplicateReply) ↔ _
    rw [Option.some_inj]
    exact checked_reply_iff _ _ _ (dispatchBroadcast_reply uuid _ params)
  | webhook target body outcome => exact ⟨nofun,fun ⟨_,missing,_⟩ => nomatch missing⟩
  | addRule rule => exact ⟨nofun,fun ⟨_,missing,_⟩ => nomatch missing⟩
  | removeRules agentId => exact ⟨nofun,fun ⟨_,missing,_⟩ => nomatch missing⟩
  | removeSession id => exact ⟨nofun,fun ⟨_,missing,_⟩ => nomatch missing⟩
  | wait millis => exact ⟨nofun,fun ⟨_,missing,_⟩ => nomatch missing⟩

/-- Serving a message leaves the clock and the noted ids alone. -/
theorem serve_seen (content : String) (s : Hub) (origin : Origin) :
    (serve uuid content s origin).now = s.now ∧
      (serve uuid content s origin).registry.seenIds = s.registry.seenIds := by
  have served := Conversations.serve_served uuid content s origin
  generalize serve uuid content s origin = next at served
  cases served with
  | reused session found => exact ⟨rfl,rfl⟩
  | refused missing => exact ⟨rfl,rfl⟩
  | opened missing =>
    refine ⟨rfl,?_⟩
    cases Conversations.key origin with
    | none => rfl
    | some tid => rfl

theorem step_seen (s : Hub) (event : Event) :
    (step uuid s event).now = (settle uuid s event).now ∧
      (step uuid s event).registry.seenIds = (settle uuid s event).registry.seenIds := by
  rw [Conversations.step_serve]
  apply List.foldlRecOn (motive := fun next : Hub => next.now = (settle uuid s event).now ∧
    next.registry.seenIds = (settle uuid s event).registry.seenIds)
  · exact ⟨rfl,rfl⟩
  · intro next same origin _
    obtain ⟨now,seen⟩ := serve_seen uuid (content event) next origin
    exact ⟨now.trans same.1,seen.trans same.2⟩

theorem dedupCheck_now (s : Hub) (id : Option String) : (dedupCheck s id).1.now = s.now := by
  cases id with
  | none => rfl
  | some own => rfl

theorem now_le_step (s : Hub) (event : Event) : s.now ≤ (step uuid s event).now := by
  rw [(step_seen uuid s event).1]
  cases event with
  | inbound params => exact Nat.le_of_eq (dedupCheck_now s params.messageId).symm
  | broadcast params => exact Nat.le_of_eq (dedupCheck_now s params.messageId).symm
  | wait millis => exact Nat.le_add_right _ _
  | _ => exact Nat.le_refl _

theorem seen_step_some (s : Hub) (event : Event) (id : String) (sighted : messageId event = some id) :
    (step uuid s event).registry.seenIds = (observe 60000 s.now s.registry.seenIds id).2 := by
  rw [(step_seen uuid s event).2]
  cases event with
  | inbound params =>
    change (dedupCheck s params.messageId).1.registry.seenIds = _
    change params.messageId = some id at sighted
    rw [sighted]
    rfl
  | broadcast params =>
    change (dedupCheck s params.messageId).1.registry.seenIds = _
    change params.messageId = some id at sighted
    rw [sighted]
    rfl
  | _ => cases sighted

theorem seen_step_none (s : Hub) (event : Event) (silent : messageId event = none) :
    (step uuid s event).registry.seenIds = s.registry.seenIds := by
  rw [(step_seen uuid s event).2]
  cases event with
  | inbound params =>
    change (dedupCheck s params.messageId).1.registry.seenIds = _
    change params.messageId = none at silent
    rw [silent]
    rfl
  | broadcast params =>
    change (dedupCheck s params.messageId).1.registry.seenIds = _
    change params.messageId = none at silent
    rw [silent]
    rfl
  | _ => rfl

/-- A message is answered as a duplicate exactly if one with its id, less than a minute before
and through either method, was not: whatever its channel was, and whatever came of it. -/
theorem duplicate_iff_noted (maxSessions : Nat) (before : List Event) (event : Event) :
    AnsweredDuplicate uuid (run (step uuid) (.new maxSessions) before) event ↔
      ∃ id, messageId event = some id ∧
        Occurred (step uuid) (fun s earlier => messageId earlier = some id ∧ ¬AnsweredDuplicate uuid s earlier ∧
          (run (step uuid) (.new maxSessions) before).now - s.now < 60000) (.new maxSessions) before := by
  rw [answeredDuplicate_iff]
  apply exists_congr
  intro id
  apply and_congr_right
  intro _
  rw [run_observe_iff (step uuid) 60000 Hub.now (fun s => s.registry.seenIds) (fun _ each => messageId each)
    (now_le_step uuid) (seen_step_some uuid) (seen_step_none uuid) (.new maxSessions) before rfl id]
  apply occurred_congr
  intro s earlier
  apply and_congr_right
  intro sighted
  apply and_congr_left'
  rw [answeredDuplicate_iff]
  constructor
  · rintro new ⟨own,same,seen⟩
    rw [sighted] at same
    cases same
    rw [new] at seen
    cases seen
  · intro unseen
    exact Bool.eq_false_iff.mpr (fun seen => unseen ⟨id,sighted,seen⟩)

end Replies

/-- A message that no rule routes, before there is one. -/
def unrouted : List Event := [.inbound ⟨"one","user","hello",none,some "id"⟩,.addRule (.default "agent")]

/-- A message that is accepted. -/
def routed : List Event := [.addRule (.default "agent"),.inbound ⟨"one","user","hello",none,some "id"⟩]

/-- A message repeated after no rule had routed it, and one of another channel. -/
theorem unprocessed_swallowed :
    (AnsweredDuplicate Server.Agents.numbered (run (step Server.Agents.numbered) (.new 1) unrouted)
        (.inbound ⟨"one","user","hello",none,some "id"⟩) ∧
      ¬ProcessedBefore Server.Agents.numbered (.new 1) unrouted (.inbound ⟨"one","user","hello",none,some "id"⟩)) ∧
    AnsweredDuplicate Server.Agents.numbered (run (step Server.Agents.numbered) (.new 1) routed)
        (.inbound ⟨"two","user","hello",none,some "id"⟩) ∧
      ¬ProcessedBefore Server.Agents.numbered (.new 1) routed (.inbound ⟨"two","user","hello",none,some "id"⟩) := by
  refine ⟨⟨rfl,?_⟩,rfl,?_⟩
  · rintro (⟨_,_,_,processed⟩ | ⟨other,_⟩ | never)
    · rcases processed with ⟨_,accepted⟩ | ⟨_,_,sent⟩
      · cases accepted
      · cases sent
    · cases other
    · exact never
  · rintro (⟨other,_⟩ | ⟨other,_⟩ | never)
    · cases other
    · exact absurd (Option.some_inj.mp other) (by decide)
    · exact never

end ClawKernel.Server.Duplicates
