import ClawKernel.Sdk.Rpc

/-! When the calls and subscriptions of one client get what is theirs: each frame that one of
them takes from the socket either is meant for it, or is put where its owner still finds it.
-/
namespace ClawKernel.Sdk.Rpc
open Lib.Json Lib.Runs
open Server.Outbound (Message)

/-- A frame taken by a reader it is no answer to: a response is lost on it. -/
theorem answered_passed (s after : State) (m : Message) (calls : Answered s) (received : after.received = s.received ++ [m])
    (returned : after.returned = s.returned) (waiting : ∀ id ∈ after.waiting, id ∈ s.waiting)
    (new : ∀ id, answer m = some id → ∀ other ∈ s.received, answer other ≠ some id) :
    Answered after ↔ answer m = none := by
  constructor
  · intro right
    by_contra answers
    obtain ⟨id,answers⟩ := Option.ne_none_iff_exists'.mp answers
    have member : m ∈ after.received := received ▸ List.mem_append_right _ List.mem_cons_self
    have returns := right.answered m member id answers
    rw [returned] at returns
    obtain ⟨other,earlier,same,_⟩ := calls.own id _ returns
    exact new id answers other earlier same
  · intro none
    constructor
    · intro other member id answers
      rw [received] at member
      rw [returned]
      rcases List.mem_append.mp member with earlier | last
      · exact calls.answered other earlier id answers
      · rw [List.mem_singleton.mp last,none] at answers
        cases answers
    · intro id outcome member
      rw [returned] at member
      obtain ⟨other,earlier,found⟩ := calls.own id outcome member
      exact ⟨other,received ▸ List.mem_append_left _ earlier,found⟩
    · intro id still other member answers
      rw [received] at member
      rcases List.mem_append.mp member with earlier | last
      · exact calls.waits id (waiting id still) other earlier answers
      · rw [List.mem_singleton.mp last,none] at answers
        cases answers

theorem answered_own (s after : State) (m : Message) (id : Int) (calls : Answered s) (answers : answer m = some id)
    (received : after.received = s.received ++ [m]) (returned : after.returned = s.returned ++ [(id,outcomeOf (json m))])
    (waiting : ∀ other ∈ after.waiting, other ∈ s.waiting ∧ other ≠ id) : Answered after where
  answered other member given same := by
    rw [received] at member
    rw [returned]
    rcases List.mem_append.mp member with earlier | last
    · exact List.mem_append_left _ (calls.answered other earlier given same)
    · rw [List.mem_singleton.mp last] at same ⊢
      rw [answers] at same
      cases same
      exact List.mem_append_right _ List.mem_cons_self
  own given outcome member := by
    rw [returned] at member
    rw [received]
    rcases List.mem_append.mp member with earlier | last
    · obtain ⟨other,within,found⟩ := calls.own given outcome earlier
      exact ⟨other,List.mem_append_left _ within,found⟩
    · cases List.mem_singleton.mp last
      exact ⟨m,List.mem_append_right _ List.mem_cons_self,answers,rfl⟩
  waits given still other member same := by
    rw [received] at member
    rcases List.mem_append.mp member with earlier | last
    · exact calls.waits given (waiting given still).1 other earlier same
    · rw [List.mem_singleton.mp last,answers] at same
      exact (waiting given still).2 (Option.some_inj.mp same).symm

theorem arrived_snoc (s after : State) (m : Message) (received : after.received = s.received ++ [m]) (session : String) :
    after.arrived session = s.arrived session ++ if carried m = some session then [json m] else [] := by
  unfold State.arrived
  rw [received,List.filter_append,List.map_append]
  by_cases same : carried m = some session <;> simp [same]

theorem streamed_plain (s after : State) (m : Message) (streams : Streamed s)
    (received : after.received = s.received ++ [m]) (plain : carried m = none)
    (queues : after.notifQueues = s.notifQueues)
    (yielded : ∀ session, session ≠ "" → after.yieldedTo session = s.yieldedTo session)
    (reads : ∀ session, after.Reads session → s.Reads session) : Streamed after where
  inOrder session nonempty := by
    rw [yielded session nonempty,queues,streams.inOrder session nonempty,arrived_snoc s after m received,plain]
    simp
  prompt session nonempty waits := by
    rw [queues]
    exact streams.prompt session nonempty (reads session waits)

/-- A notification put into the queue of its session. -/
theorem streamed_parked (s after : State) (m : Message) (session : String) (streams : Streamed s)
    (received : after.received = s.received ++ [m]) (carries : carried m = some session)
    (queues : after.notifQueues = put s.notifQueues session (json m)) (yielded : after.yielded = s.yielded)
    (reads : ∀ other, after.Reads other → s.Reads other) : Streamed after ↔ ¬after.Reads session := by
  have nonempty : session ≠ "" := ((carried_iff m session).mp carries).2.2
  constructor
  · intro right waits
    have none := right.prompt session nonempty waits
    rw [queues,put,if_pos rfl] at none
    simp at none
  · intro idle
    constructor
    · intro other named
      have same : after.yieldedTo other = s.yieldedTo other := by
        unfold State.yieldedTo
        rw [yielded]
      rw [same,arrived_snoc s after m received,← streams.inOrder other named,queues,carries,put]
      by_cases own : other = session
      · simp [own]
      · simp [own,Ne.symm own]
    · intro other named waits
      have away : other ≠ session := by
        rintro rfl
        exact idle waits
      rw [queues,put,if_neg away]
      exact streams.prompt other named (reads other waits)

/-- A notification yielded by a subscriber that waited for it. -/
theorem streamed_yielded (s after : State) (m : Message) (session : String) (streams : Streamed s)
    (received : after.received = s.received ++ [m]) (carries : carried m = some session)
    (queues : after.notifQueues = s.notifQueues) (yielded : after.yielded = s.yielded ++ [(session,json m)])
    (waited : s.Reads session) (reads : ∀ other, after.Reads other → s.Reads other) : Streamed after where
  inOrder other named := by
    have before := streams.inOrder other named
    rw [arrived_snoc s after m received,← before,queues,carries]
    unfold State.yieldedTo
    rw [yielded,List.filter_append,List.map_append]
    by_cases own : other = session
    · subst own
      simp [streams.prompt other named waited]
    · simp [Ne.symm own]
  prompt other named waits := by
    rw [queues]
    exact streams.prompt other named (reads other waits)

theorem reads_of_phase (s : State) (index : Nat) (sub : Subscriber) (phase : Phase) (away : phase ≠ .reading)
    (session : String) (reads : (s.phase index sub phase).Reads session) : s.Reads session := by
  rcases List.mem_or_eq_of_mem_set reads with before | same
  · exact before
  · exact absurd (congrArg Subscriber.phase same).symm away

theorem reads_phase (s : State) (index : Nat) (sub : Subscriber) (phase : Phase) (session : String)
    (found : s.subscribers[index]? = some sub) (away : session ≠ sub.session) (reads : s.Reads session) :
    (s.phase index sub phase).Reads session := by
  obtain ⟨place,there⟩ := List.mem_iff_getElem?.mp reads
  have apart : index ≠ place := by
    rintro rfl
    rw [found] at there
    cases there
    exact away rfl
  refine List.mem_iff_getElem?.mpr ⟨place,?_⟩
  change (s.subscribers.set index _)[place]? = _
  rw [List.getElem?_set_ne apart]
  exact there

theorem new_of_sound (s : State) (m : Message) (rest : List Message) (sound : Sound s) (wire : s.wire = m :: rest) :
    ∀ id, answer m = some id → ∀ other ∈ s.received, answer other ≠ some id := by
  intro id answers other member same
  have once := sound.once
  rw [wire,List.filterMap_append,List.filterMap_cons,answers] at once
  exact (List.nodup_append.mp once).2.2 id (List.mem_filterMap.mpr ⟨other,member,same⟩) id List.mem_cons_self rfl

theorem sound_taken (s : State) (m : Message) (rest : List Message) (sound : Sound s) (wire : s.wire = m :: rest) :
    Sound (s.taken m rest) :=
  sound_same s _ sound rfl rfl (by simp [State.taken,wire])

theorem sound_callGot (s : State) (id : Int) (m : Message) (sound : Sound s) : Sound (callGot s id (json m)) := by
  rcases callGot_cases s id m with ⟨_,same⟩ | ⟨_,_,same | ⟨_,same⟩⟩ | ⟨_,_,_,same⟩
  all_goals
    rw [same]
    exact sound_same s _ sound rfl rfl rfl

theorem sound_subscriberGot (s : State) (index : Nat) (sub : Subscriber) (m : Message) (sound : Sound s) :
    Sound (subscriberGot s index sub (json m)) := by
  rcases subscriberGot_cases s index sub m with ⟨_,⟨_,_,same⟩ | ⟨_,same⟩⟩ | ⟨_,same⟩ | ⟨_,_,_,same⟩
  all_goals
    rw [same]
    exact sound_same s _ sound rfl rfl rfl

theorem sound_call (s : State) (sound : Sound s) : Sound (step s .call) := by
  have before : ∀ id ∈ s.unanswered, id < s.reqId := sound.fresh
  refine ⟨fun id member => ?_,fun m member id answers => ?_,sound.once⟩
  · change id < s.reqId + 1
    rcases List.mem_append.mp member with earlier | last
    · exact Int.lt_trans (before id earlier) (Int.lt_succ _)
    · rw [List.mem_singleton.mp last]
      exact Int.lt_succ _
  · have known := sound.sent m member id answers
    refine ⟨Int.lt_trans known.1 (Int.lt_succ _),fun still => ?_⟩
    rcases List.mem_append.mp still with earlier | last
    · exact known.2 earlier
    · exact Int.ne_of_lt known.1 (List.mem_singleton.mp last)

/-- The server answers a request once, and may send a response that answers none. -/
theorem sound_respond (s : State) (response : Server.Protocol.Response) (sound : Sound s) :
    Sound (step s (.respond response)) := by
  have idless : answer (.response response) = none →
      Sound {s with wire := s.wire ++ [.response response]} := fun none =>
    sound_sent s _ s.unanswered sound (fun _ => id) (fun _ clash => by rw [none] at clash; cases clash)
  unfold step
  simp only
  split
  · rename_i id given
    split
    · rename_i open_
      refine sound_sent s _ _ sound (fun other member => List.mem_of_mem_filter member) (fun other answers => ?_)
      rw [answer,given] at answers
      cases answers
      exact ⟨open_,by simp⟩
    · exact sound
  · exact sound
  · rename_i number text
    refine idless ?_
    cases given : response.id with
    | none => simp [answer,given]
    | some id =>
      cases id with
      | number id => exact absurd given (number id)
      | string _ => simp [answer,given]
      | null => simp [answer,given]

theorem sound_step (s : State) (act : Act) (sound : Sound s) : Sound (step s act) := by
  have same : ∀ after : State, after.reqId = s.reqId → after.unanswered = s.unanswered →
      after.received = s.received → after.wire = s.wire → Sound after := fun after first second third fourth =>
    sound_same s after sound first second (by rw [third,fourth])
  cases act with
  | call => exact sound_call s sound
  | subscribe session => exact same _ rfl rfl rfl rfl
  | notify notification => exact sound_sent s _ s.unanswered sound (fun _ => id) (fun _ clash => by cases clash)
  | respond response => exact sound_respond s response sound
  | recvCall id =>
    unfold step
    simp only
    split
    · exact sound
    · rename_i m rest wire
      split
      · exact sound_callGot _ id m (sound_taken s m rest sound wire)
      · exact sound
  | recvSubscriber index =>
    unfold step
    simp only
    split
    · rename_i session m rest _ wire
      exact sound_subscriberGot _ index _ m (sound_taken s m rest sound wire)
    · exact sound
  | drain index =>
    unfold step
    simp only
    split
    · split <;> exact same _ rfl rfl rfl rfl
    · exact sound
  | next index =>
    unfold step
    simp only
    split
    · exact same _ rfl rfl rfl rfl
    · exact sound
  | close index =>
    unfold step
    simp only
    split
    · exact same _ rfl rfl rfl rfl
    · exact sound

theorem recvCall_iff (s : State) (id : Int) (m : Message) (rest : List Message) (sound : Sound s)
    (right : Multiplexed s) (wire : s.wire = m :: rest) : Multiplexed (callGot (s.taken m rest) id (json m)) ↔
      (∀ other, answer m = some other → other = id) ∧ ∀ session, carried m = some session → ¬s.Reads session := by
  have new := new_of_sound s m rest sound wire
  have fewer : ∀ other ∈ s.waiting.filter (fun other => other ≠ id), other ∈ s.waiting :=
    fun other member => List.mem_of_mem_filter member
  rcases callGot_cases (s.taken m rest) id m with ⟨answers,got⟩ | ⟨other,plain,got⟩ | ⟨none,session,carries,got⟩
  · have plain : carried m = none := by
      by_contra carries
      obtain ⟨session,carries⟩ := Option.ne_none_iff_exists'.mp carries
      rw [isNotification_answer m ((carried_iff m session).mp carries).1] at answers
      cases answers
    rw [got]
    refine iff_of_true ⟨?_,?_⟩ ⟨fun other same => ?_,fun session clash => ?_⟩
    · refine answered_own s _ m id right.calls answers rfl rfl (fun other member => ?_)
      have kept := List.mem_filter.mp member
      exact ⟨kept.1,of_decide_eq_true kept.2⟩
    · exact streamed_plain s _ m right.streams rfl plain rfl (fun _ _ => rfl) (fun _ reads => reads)
    · rw [answers] at same
      exact (Option.some_inj.mp same).symm
    · rw [plain] at clash
      cases clash
  · have lost : Multiplexed (callGot (s.taken m rest) id (json m)) ↔ answer m = none := by
      rcases got with got | ⟨pending,got⟩
      · rw [got]
        have streams := streamed_plain s ((s.taken m rest).leave id) m right.streams rfl plain rfl (fun _ _ => rfl)
          (fun _ reads => reads)
        exact Iff.trans ⟨fun after => after.calls,fun calls => ⟨calls,streams⟩⟩
          (answered_passed s _ m right.calls rfl rfl fewer new)
      · rw [got]
        have streams := streamed_plain s {s.taken m rest with pendingResponses := pending} m right.streams rfl plain rfl
          (fun _ _ => rfl) (fun _ reads => reads)
        exact Iff.trans ⟨fun after => after.calls,fun calls => ⟨calls,streams⟩⟩
          (answered_passed s _ m right.calls rfl rfl (fun _ still => still) new)
    rw [lost,plain]
    constructor
    · intro none
      rw [none]
      exact ⟨fun _ clash => (by cases clash),fun _ clash => by cases clash⟩
    · rintro ⟨only,_⟩
      by_contra answers
      obtain ⟨number,answers⟩ := Option.ne_none_iff_exists'.mp answers
      exact other (only number answers ▸ answers)
  · rw [got,carries,none]
    have calls := (answered_passed s {s.taken m rest with notifQueues := put s.notifQueues session (json m)} m right.calls
      rfl rfl (fun _ still => still) new).mpr none
    have streams := streamed_parked s {s.taken m rest with notifQueues := put s.notifQueues session (json m)} m session
      right.streams rfl carries rfl rfl (fun _ reads => reads)
    constructor
    · intro after
      refine ⟨fun _ clash => (by cases clash),fun other same => ?_⟩
      cases same
      exact streams.mp after.streams
    · rintro ⟨_,idle⟩
      exact ⟨calls,streams.mpr (idle session rfl)⟩

theorem recvSubscriber_iff (s : State) (index : Nat) (session : String) (m : Message) (rest : List Message)
    (sound : Sound s) (right : Multiplexed s) (wire : s.wire = m :: rest)
    (found : s.subscribers[index]? = some ⟨session,.reading⟩) :
    Multiplexed (subscriberGot (s.taken m rest) index ⟨session,.reading⟩ (json m)) ↔
      answer m = none ∧ ∀ other, carried m = some other → s.Reads other → other = session := by
  have new := new_of_sound s m rest sound wire
  have reads : s.Reads session := List.mem_of_getElem? found
  have calls : ∀ after : State, after.received = s.received ++ [m] → after.returned = s.returned →
      after.waiting = s.waiting → (Answered after ↔ answer m = none) := fun after received returned waiting =>
    answered_passed s after m right.calls received returned (fun _ still => waiting ▸ still) new
  rcases subscriberGot_cases (s.taken m rest) index ⟨session,.reading⟩ m with
    ⟨plain,⟨phase,away,got⟩ | ⟨empty,got⟩⟩ | ⟨carries,got⟩ | ⟨other,carries,away,got⟩
  · have streams : Streamed (State.phase (s.taken m rest) index ⟨session,.reading⟩ phase) :=
      streamed_plain s _ m right.streams rfl plain rfl (fun _ _ => rfl)
        (fun other => reads_of_phase (s.taken m rest) index _ phase away other)
    have lost := calls (State.phase (s.taken m rest) index ⟨session,.reading⟩ phase) rfl rfl rfl
    rw [got,plain]
    refine Iff.trans ⟨fun after => after.calls,fun calls => ⟨calls,streams⟩⟩ (lost.trans ?_)
    simp
  · have streams : Streamed (State.yield (s.taken m rest) index ⟨session,.reading⟩ (json m)) := by
      refine streamed_plain s _ m right.streams rfl plain rfl (fun other named => ?_)
        (fun other => reads_of_phase (s.taken m rest) index _ .yielded (by decide) other)
      have apart : session ≠ other := fun same => named (same.symm.trans empty)
      simp [State.yieldedTo,State.yield,State.phase,State.taken,apart]
    have lost := calls (State.yield (s.taken m rest) index ⟨session,.reading⟩ (json m)) rfl rfl rfl
    rw [got,plain]
    refine Iff.trans ⟨fun after => after.calls,fun calls => ⟨calls,streams⟩⟩ (lost.trans ?_)
    simp
  · have streams : Streamed (State.yield (s.taken m rest) index ⟨session,.reading⟩ (json m)) :=
      streamed_yielded s _ m session right.streams rfl carries rfl rfl reads
        (fun other => reads_of_phase (s.taken m rest) index _ .yielded (by decide) other)
    have lost := calls (State.yield (s.taken m rest) index ⟨session,.reading⟩ (json m)) rfl rfl rfl
    rw [got,carries]
    refine Iff.trans ⟨fun after => after.calls,fun calls => ⟨calls,streams⟩⟩ (lost.trans ?_)
    simp only [Option.some.injEq]
    exact ⟨fun none => ⟨none,fun _ same _ => same.symm⟩,fun both => both.1⟩
  · have none : answer m = none := isNotification_answer m ((carried_iff m other).mp carries).1
    have kept := calls (State.phase {s.taken m rest with notifQueues := put s.notifQueues other (json m)} index
      ⟨session,.reading⟩ .draining) rfl rfl rfl
    have streams := streamed_parked s
      (State.phase {s.taken m rest with notifQueues := put s.notifQueues other (json m)} index ⟨session,.reading⟩ .draining)
      m other right.streams rfl carries rfl rfl
      (fun name => reads_of_phase (s.taken m rest) index _ .draining (by decide) name)
    rw [got,none,carries]
    constructor
    · intro after
      refine ⟨rfl,fun name same waits => ?_⟩
      cases same
      exact absurd (reads_phase (s.taken m rest) index ⟨session,.reading⟩ .draining other found away waits)
        (streams.mp after.streams)
    · rintro ⟨_,idle⟩
      refine ⟨kept.mpr none,streams.mpr (fun waits => ?_)⟩
      exact away (idle other rfl (reads_of_phase (s.taken m rest) index _ .draining (by decide) other waits))

theorem multiplexed_same (s after : State) (right : Multiplexed s) (received : after.received = s.received)
    (returned : after.returned = s.returned) (waiting : after.waiting = s.waiting)
    (queues : after.notifQueues = s.notifQueues) (yielded : after.yielded = s.yielded)
    (reads : ∀ session, after.Reads session → s.Reads session) : Multiplexed after := by
  obtain ⟨⟨answered,own,waits⟩,⟨inOrder,prompt⟩⟩ := right
  refine ⟨⟨?_,?_,?_⟩,⟨?_,?_⟩⟩
  · rwa [received,returned]
  · rwa [received,returned]
  · rwa [received,waiting]
  · intro session nonempty
    unfold State.yieldedTo State.arrived
    rw [received,queues,yielded]
    exact inOrder session nonempty
  · intro session nonempty waits
    rw [queues]
    exact prompt session nonempty (reads session waits)

/-- A generator yields what stands first in its queue. -/
theorem multiplexed_drained (s : State) (index : Nat) (session : String) (msg : Value) (rest : List Value)
    (right : Multiplexed s) (queue : s.notifQueues session = msg :: rest) :
    Multiplexed (State.yield {s with
      notifQueues := fun other => if other = session then rest else s.notifQueues other} index ⟨session,.draining⟩ msg) := by
  refine ⟨⟨right.calls.answered,right.calls.own,right.calls.waits⟩,⟨fun other named => ?_,fun other named waits => ?_⟩⟩
  · have before := right.streams.inOrder other named
    change ((s.yielded ++ [(session,msg)]).filter (fun taken => taken.1 = other)).map Prod.snd ++ _ = s.arrived other
    rw [← before,List.filter_append,List.map_append]
    by_cases own : other = session
    · subst own
      simp [State.yieldedTo,State.yield,State.phase,queue]
    · simp [State.yieldedTo,State.yield,State.phase,own,Ne.symm own]
  · have reads := reads_of_phase s index ⟨session,.draining⟩ .yielded (by decide) other waits
    have empty := right.streams.prompt other named reads
    change (if other = session then rest else s.notifQueues other) = []
    split
    · rename_i own
      rw [own,queue] at empty
      cases empty
    · exact empty

theorem recvCall_step_iff (s : State) (id : Int) (sound : Sound s) (right : Multiplexed s) :
    Multiplexed (step s (.recvCall id)) ↔ Suits s (.recvCall id) := by
  unfold step Suits State.reader
  simp only
  cases wire : s.wire with
  | nil => exact iff_of_true right (fun _ _ _ clash => by cases clash)
  | cons m rest =>
    simp only
    by_cases waits : id ∈ s.waiting
    · rw [if_pos waits,recvCall_iff s id m rest sound right wire]
      simp only [if_pos waits,Option.some.injEq,List.head?_cons]
      constructor
      · rintro ⟨only,idle⟩ reader other rfl rfl
        exact ⟨fun number answers => congrArg Reader.call (only number answers).symm,
          fun session carries reads => absurd reads (idle session carries)⟩
      · intro suits
        obtain ⟨only,idle⟩ := suits (.call id) m rfl rfl
        refine ⟨fun number answers => ?_,fun session carries reads => ?_⟩
        · cases only number answers
          rfl
        · cases idle session carries reads
    · rw [if_neg waits]
      refine iff_of_true right (fun _ _ clash => ?_)
      rw [if_neg waits] at clash
      cases clash

theorem recvSubscriber_step_iff (s : State) (index : Nat) (sound : Sound s) (right : Multiplexed s) :
    Multiplexed (step s (.recvSubscriber index)) ↔ Suits s (.recvSubscriber index) := by
  unfold step Suits State.reader
  simp only
  split
  · rename_i session m rest found wire
    rw [recvSubscriber_iff s index session m rest sound right wire found]
    simp only [found,wire,Option.some.injEq,List.head?_cons]
    constructor
    · rintro ⟨none,only⟩ reader other rfl rfl
      refine ⟨fun number answers => ?_,fun name carries reads => congrArg Reader.subscriber (only name carries reads).symm⟩
      rw [none] at answers
      cases answers
    · intro suits
      obtain ⟨none,only⟩ := suits (.subscriber session) m rfl rfl
      refine ⟨?_,fun name carries reads => ?_⟩
      · by_contra answers
        obtain ⟨number,answers⟩ := Option.ne_none_iff_exists'.mp answers
        cases none number answers
      · cases only name carries reads
        rfl
  · rename_i other
    refine iff_of_true right (fun reader m reads head => ?_)
    split at reads
    · rename_i session found
      obtain ⟨rest,wire⟩ := List.head?_eq_some_iff.mp head
      exact absurd wire (other session m rest found)
    · cases reads

/-- A subscriber whose queue is empty goes to the socket. -/
theorem multiplexed_drain (s : State) (index : Nat) (right : Multiplexed s) : Multiplexed (step s (.drain index)) := by
  unfold step
  simp only
  split
  · rename_i session found
    split
    · rename_i msg rest queue
      exact multiplexed_drained s index session msg rest right queue
    · rename_i queue
      refine ⟨⟨right.calls.answered,right.calls.own,right.calls.waits⟩,⟨right.streams.inOrder,fun other named reads => ?_⟩⟩
      rcases List.mem_or_eq_of_mem_set reads with before | same
      · exact right.streams.prompt other named before
      · cases same
        exact queue
  · exact right

theorem multiplexed_step_iff (s : State) (act : Act) (sound : Sound s) (right : Multiplexed s) :
    Multiplexed (step s act) ↔ Suits s act := by
  have free : s.reader act = none → Multiplexed (step s act) → (Multiplexed (step s act) ↔ Suits s act) :=
    fun none after => iff_of_true after (fun _ _ clash => by rw [none] at clash; cases clash)
  cases act with
  | call =>
    refine free rfl ⟨⟨right.calls.answered,right.calls.own,fun id member m taken answers => ?_⟩,
      ⟨right.streams.inOrder,right.streams.prompt⟩⟩
    rcases List.mem_append.mp member with earlier | last
    · exact right.calls.waits id earlier m taken answers
    · have known := (sound.sent m (List.mem_append_left _ taken) id answers).1
      exact Int.ne_of_lt known (List.mem_singleton.mp last)
  | subscribe session =>
    refine free rfl (multiplexed_same s _ right rfl rfl rfl rfl rfl (fun other reads => ?_))
    rcases List.mem_append.mp reads with earlier | last
    · exact earlier
    · cases List.mem_singleton.mp last
  | notify notification => exact free rfl (multiplexed_same s _ right rfl rfl rfl rfl rfl (fun _ reads => reads))
  | respond response =>
    refine free rfl ?_
    unfold step
    simp only
    split
    · split
      · exact multiplexed_same s _ right rfl rfl rfl rfl rfl (fun _ reads => reads)
      · exact right
    · exact right
    · exact multiplexed_same s _ right rfl rfl rfl rfl rfl (fun _ reads => reads)
  | recvCall id => exact recvCall_step_iff s id sound right
  | recvSubscriber index => exact recvSubscriber_step_iff s index sound right
  | drain index => exact free rfl (multiplexed_drain s index right)
  | next index =>
    refine free rfl ?_
    unfold step
    simp only
    split
    · exact multiplexed_same s _ right rfl rfl rfl rfl rfl
        (fun other => reads_of_phase s index _ .draining (by decide) other)
    · exact right
  | close index =>
    refine free rfl ?_
    unfold step
    simp only
    split
    · exact multiplexed_same s _ right rfl rfl rfl rfl rfl
        (fun other => reads_of_phase s index _ .ended (by decide) other)
    · exact right

/-- Calls and subscriptions are multiplexed throughout exactly when each frame reaches the
reader it is meant for. -/
theorem multiplexed_iff (acts : List Act) : Always step Multiplexed .new acts ↔ Along step Suits .new acts := by
  refine always_iff_along step Suits Multiplexed Sound (fun _ => True) (fun s act sound _ => sound_step s act sound)
    (fun s act sound _ right => multiplexed_step_iff s act sound right) .new acts (fun _ _ => trivial) ?_ ?_
  · constructor <;> simp [State.new]
  · refine ⟨⟨?_,?_,?_⟩,⟨fun _ _ => rfl,fun _ _ _ => rfl⟩⟩ <;> simp [State.new]

/-- Of two calls one takes the response of the other, and a call takes a notification of a
session whose subscriber waits at the socket. -/
theorem frame_taken_away :
    ¬Always step Multiplexed .new [.call,.call,.respond (.success (.bool true) (some (.number 1))),.recvCall 2] ∧
    ¬Always step Multiplexed .new [.subscribe "s",.drain 0,.call,
      .notify (.new "agent/streamChunk" (some (.object [("session_id",.string "s")]))),.recvCall 1] := by
  constructor
  · intro always
    have waits := (always_end _ _ _ _ always).calls.waits 1 (by decide)
    exact waits (.response (.success (.bool true) (some (.number 1)))) List.mem_cons_self rfl
  · intro always
    have prompt := (always_end _ _ _ _ always).streams.prompt "s" (by decide) List.mem_cons_self
    cases prompt

end ClawKernel.Sdk.Rpc
