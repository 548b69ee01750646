import Mathlib.Data.List.Count
import ClawKernel.Sdk.Reconnect

/-! How often the requests of a client that reconnects are sent and performed. A copy that a daemon has not read
may still be performed, also when the client has left its connection. -/
namespace ClawKernel.Sdk.Reconnect
open Lib.Runs

section Call
variable (autoReconnect : Bool) (maxRetries : ℕ)

def isRequest (id : ℕ) : ℕ × Frame → Bool
  | (_,.request other _) => other = id
  | (_,.auth _ _) => false

/-- How often daemons have performed a request, and may still: they perform each copy they read. -/
def State.carried (s : State) (id : ℕ) : ℕ := s.performed.count id + s.wire.countP (isRequest id)

/-- The step sends a request over a connection whose daemon will read it. -/
def Sends (s : State) (act : Act) (id : ℕ) : Prop :=
  act = .send true ∧ ∃ method retries rest link, s.stack = ⟨.request id method,retries,.sending⟩ :: rest ∧
    s.sock = some link ∧ (s.links link).up = true ∧ (s.links link).cutOff = false

/-- Whatever a step does to the rest, no more of a request may be performed than before. -/
structure Rests (s t : State) (id : ℕ) : Prop where
  carried : t.carried id ≤ s.carried id
  sent : t.sent.count id = s.sent.count id

theorem rests_same (s t : State) (id : ℕ) (wire : t.wire = s.wire) (performed : t.performed = s.performed)
    (sent : t.sent = s.sent) : Rests s t id :=
  ⟨Nat.le_of_eq (by rw [State.carried,State.carried,wire,performed]),by rw [sent]⟩

theorem broken_rests (s t : State) (c : Call) (rest : List Call) (id : ℕ) (wire : t.wire = s.wire)
    (performed : t.performed = s.performed) (sent : t.sent = s.sent) :
    Rests s (t.broken autoReconnect maxRetries c rest) id := by
  rw [State.broken]
  split_ifs <;> exact rests_same s _ id wire performed sent

theorem got_rests (s t : State) (c : Call) (rest : List Call) (answer : Answer) (id : ℕ) (wire : t.wire = s.wire)
    (performed : t.performed = s.performed) (sent : t.sent = s.sent) : Rests s (t.got c rest answer) id := by
  cases answer with
  | result other =>
    simp only [State.got]
    split_ifs
    · cases rest <;> exact rests_same s _ id wire performed sent
    · exact rests_same s t id wire performed sent
  | error other =>
    simp only [State.got]
    split_ifs <;> exact rests_same s _ id wire performed sent
  | other => exact rests_same s t id wire performed sent

theorem answer_carried (s : State) (link : ℕ) (answer : Answer) (id : ℕ) :
    (s.answer link answer).carried id = s.carried id := by
  rw [State.answer]
  split_ifs <;> rfl

/-- A daemon that has read a frame performs it once if it is a request behind the gate. -/
theorem handle_carried (s : State) (link : ℕ) (reply : Reply) (frame : Frame) (id : ℕ) :
    (s.handle link reply frame).carried id ≤ s.carried id + (if isRequest id (link,frame) then 1 else 0) := by
  cases frame with
  | auth other token =>
    refine Nat.le_trans ?_ (Nat.le_add_right _ _)
    simp only [State.handle]
    split
    · split
      · exact Nat.le_refl _
      · exact Nat.le_of_eq (answer_carried _ link (.result other) id)
    · split
      · exact Nat.le_refl _
      · exact Nat.le_of_eq (answer_carried s link (.error other) id)
  | request other method =>
    have performs : State.carried {s with performed := s.performed ++ [other]} id =
        s.carried id + (if isRequest id (link,.request other method) then 1 else 0) := by
      simp only [State.carried,List.count_append,List.count_singleton,isRequest,decide_eq_true_eq,beq_iff_eq]
      omega
    simp only [State.handle]
    split
    · cases reply with
      | result => exact Nat.le_of_eq ((answer_carried _ link (.result other) id).trans performs)
      | error => exact Nat.le_of_eq ((answer_carried _ link (.error other) id).trans performs)
      | nothing => exact Nat.le_of_eq performs
    · split
      · exact Nat.le_add_right _ _
      · rw [answer_carried]
        exact Nat.le_add_right _ _

theorem serve_rests (s : State) (link : ℕ) (reply : Reply) (e : ℕ × Frame) (id : ℕ)
    (found : s.wire.find? (fun e => e.1 = link) = some e) :
    Rests s ({s with wire := s.wire.eraseP (fun e => e.1 = link)}.handle link reply e.2) id := by
  obtain ⟨here,before,after,parts,apart⟩ := List.find?_eq_some_iff_append.mp found
  simp only [decide_eq_true_eq] at here
  have left : s.wire.eraseP (fun e => e.1 = link) = before ++ after := by
    rw [parts,List.eraseP_append_right _ (fun b member => by simpa using apart b member),
      List.eraseP_cons_of_pos (by simpa using here)]
  refine ⟨?_,congrArg (List.count id) (handle_still _ link reply e.2).2.1⟩
  refine Nat.le_trans (handle_carried _ link reply e.2 id) (Nat.le_of_eq ?_)
  have same : (link,e.2) = e := by rw [← here]
  rw [same,State.carried,State.carried]
  change s.performed.count id + (s.wire.eraseP (fun e => e.1 = link)).countP (isRequest id) + _ = _
  rw [left,parts,List.countP_append,List.countP_append,List.countP_cons]
  omega

theorem rests_step (s : State) (act : Act) (id : ℕ) (silent : ¬Sends s act id) :
    Rests s (step autoReconnect maxRetries s act) id := by
  have rests : Rests s s id := rests_same s s id rfl rfl rfl
  cases act with
  | call method =>
    simp only [step]
    split <;> exact rests_same s _ id rfl rfl rfl
  | authenticate token =>
    simp only [step]
    split <;> exact rests_same s _ id rfl rfl rfl
  | next =>
    simp only [step]
    split_ifs <;> exact rests_same s _ id rfl rfl rfl
  | send whole =>
    simp only [step]
    split
    next frame retries rest was =>
      simp only [State.sendFrame]
      split
      · exact rests_same s _ id rfl rfl rfl
      next link connected =>
        split_ifs with down all
        · exact broken_rests autoReconnect maxRetries s s _ rest id rfl rfl rfl
        · cases frame with
          | auth other token =>
            simp only [State.write]
            split_ifs
            · exact rests_same s _ id rfl rfl rfl
            · refine ⟨Nat.le_of_eq ?_,rfl⟩
              simp only [State.carried,List.countP_append,List.countP_singleton]
              rw [isRequest,if_neg Bool.false_ne_true,Nat.add_zero]
          | request other method =>
            simp only [State.write]
            split_ifs with cut
            · exact rests_same s _ id rfl rfl rfl
            · have differs : other ≠ id := by
                rintro rfl
                exact silent ⟨congrArg Act.send all,method,retries,rest,link,was,connected,by simpa using down,
                  by simpa using cut⟩
              constructor
              · refine Nat.le_of_eq ?_
                simp only [State.carried,List.countP_append,List.countP_singleton]
                rw [isRequest,if_neg (by simpa using differs),Nat.add_zero]
              · change (s.sent ++ [other]).count id = _
                rw [List.count_append,List.count_singleton,if_neg (by simpa using differs),Nat.add_zero]
        · exact broken_rests autoReconnect maxRetries s _ _ rest id rfl rfl rfl
    · exact rests
  | receive =>
    simp only [step]
    split
    next frame retries rest was =>
      simp only [State.recvFrame]
      split
      · exact rests_same s _ id rfl rfl rfl
      · split
        · exact rests
        · split
          · split_ifs
            · exact rests
            · exact broken_rests autoReconnect maxRetries s s _ rest id rfl rfl rfl
          next answer later _ => exact got_rests s _ _ rest answer id rfl rfl rfl
    · exact rests
  | timeout within =>
    simp only [step]
    split
    · simp only [State.timesOut]
      split
      · exact rests_same s _ id rfl rfl rfl
      · exact broken_rests autoReconnect maxRetries s _ _ _ id rfl rfl rfl
    · rw [State.misses]
      split
      · exact rests
      · exact rests_same s _ id rfl rfl rfl
    · exact rests
  | garbled =>
    simp only [step]
    split <;> exact rests_same s _ id rfl rfl rfl
  | reconnect daemon token =>
    simp only [step]
    split
    · cases daemon <;> exact rests_same s _ id rfl rfl rfl
    · exact rests
  | serve link reply =>
    simp only [step]
    split_ifs
    · split
      next e found => exact serve_rests s link reply e id found
      · exact rests
    · exact rests
  | push =>
    simp only [step]
    split
    next link _ =>
      split_ifs
      · exact ⟨Nat.le_of_eq (answer_carried s link .other id),congrArg (List.count id)
          (answer_still s s link .other (still_refl s) rfl rfl).2.1⟩
      · exact rests
    · exact rests
  | hangUp link =>
    refine ⟨Nat.add_le_add_left ?_ _,rfl⟩
    exact (List.filter_sublist (l := s.wire)).countP_le

theorem sends_step (s : State) (act : Act) (id : ℕ) (sends : Sends s act id) :
    (step autoReconnect maxRetries s act).carried id = s.carried id + 1 ∧
      (step autoReconnect maxRetries s act).sent.count id = s.sent.count id + 1 := by
  obtain ⟨rfl,method,retries,rest,link,was,connected,up,whole⟩ := sends
  have sent : (step autoReconnect maxRetries s (.send true)).wire = s.wire ++ [(link,.request id method)] ∧
      (step autoReconnect maxRetries s (.send true)).performed = s.performed ∧
        (step autoReconnect maxRetries s (.send true)).sent = s.sent ++ [id] := by
    simp only [step,was,State.sendFrame,connected,up,State.write,whole]
    exact ⟨rfl,rfl,rfl⟩
  rw [State.carried,sent.1,sent.2.1,sent.2.2,List.countP_append,List.countP_singleton,isRequest,
    if_pos (by simp),List.count_append,List.count_singleton_self,State.carried]
  exact ⟨rfl,rfl⟩

/-! What an answer says of the daemons. -/

/-- Only a daemon that has accepted a token has brought a result, and it brings that of a request once it has
performed it; a call that goes on after a reconnection is past the gate. -/
structure Sound (s : State) : Prop where
  users : ∀ id ∈ s.users, id < s.reqId
  stack : ∀ c ∈ s.stack, c.frame.id < s.reqId ∧ ∀ id token, c.frame = .auth id token → id ∉ s.users
  wire : ∀ e ∈ s.wire, e.2.id < s.reqId ∧ ∀ id token, e.2 = .auth id token → id ∉ s.users
  answers : ∀ id, .result id ∈ s.answers → id < s.reqId ∧ (id ∈ s.users → id ∈ s.performed)
  ended : ∀ id, (id,.returned) ∈ s.ended → id < s.reqId ∧ (id ∈ s.users → id ∈ s.performed)
  gated : ∀ id, .result id ∈ s.answers → ∀ link, s.sock = some link → (s.links link).authenticated = true
  resent : ∀ c rest, s.stack = c :: rest → c.phase ≠ .reconnecting → 0 < c.retries → ∀ link, s.sock = some link →
    (s.links link).authenticated = true

theorem sound_start (daemon : String) : Sound (start daemon) :=
  ⟨nofun,nofun,nofun,nofun,nofun,nofun,nofun⟩

/-- The connection of the client, if it still has one, is the same and as authenticated as before. -/
def Keeps (s t : State) : Prop :=
  ∀ link, t.sock = some link →
    s.sock = some link ∧ ((s.links link).authenticated = true → (t.links link).authenticated = true)

theorem keeps_refl (s : State) : Keeps s s := fun _ connected => ⟨connected,id⟩

theorem keeps_closed (s t : State) (closed : t.sock = none) : Keeps s t :=
  fun link connected => absurd (closed.symm.trans connected) (Option.some_ne_none link).symm

theorem keeps_change (s : State) (link : ℕ) (f : Link → Link)
    (keeps : ∀ l : Link, l.authenticated = true → (f l).authenticated = true) : Keeps s (s.change link f) := by
  intro other connected
  refine ⟨connected,fun before => ?_⟩
  by_cases same : other = link
  · rw [same] at before ⊢
    exact (congrArg Link.authenticated (Function.update_self link _ s.links)).trans (keeps _ before)
  · exact (congrArg Link.authenticated (Function.update_of_ne same _ s.links)).trans before

/-- Frames are read, answers taken, activations left. -/
theorem Sound.shrinks {s t : State} (sound : Sound s) (users : t.users = s.users) (reqId : t.reqId = s.reqId)
    (stack : ∀ c ∈ t.stack, ∃ b ∈ s.stack, b.frame = c.frame) (wire : ∀ e ∈ t.wire, e ∈ s.wire)
    (answers : ∀ id, .result id ∈ t.answers → .result id ∈ s.answers) (performed : ∀ id ∈ s.performed, id ∈ t.performed)
    (ended : ∀ id, (id,.returned) ∈ t.ended → (id,.returned) ∈ s.ended) (keeps : Keeps s t)
    (resent : ∀ c rest, t.stack = c :: rest → c.phase ≠ .reconnecting → 0 < c.retries → ∀ link, t.sock = some link →
      (t.links link).authenticated = true) : Sound t where
  users := by
    rw [users,reqId]
    exact sound.users
  stack c member := by
    obtain ⟨b,there,same⟩ := stack c member
    rw [users,reqId,← same]
    exact sound.stack b there
  wire e member := by
    rw [users,reqId]
    exact sound.wire e (wire e member)
  answers id member := by
    obtain ⟨less,done⟩ := sound.answers id (answers id member)
    rw [users,reqId]
    exact ⟨less,fun user => performed id (done user)⟩
  ended id member := by
    obtain ⟨less,done⟩ := sound.ended id (ended id member)
    rw [users,reqId]
    exact ⟨less,fun user => performed id (done user)⟩
  gated id member link connected :=
    (keeps link connected).2 (sound.gated id (answers id member) link (keeps link connected).1)
  resent := resent

theorem Sound.raises {s t : State} (sound : Sound s) (users : t.users = s.users) (reqId : t.reqId = s.reqId)
    (wire : t.wire = s.wire) (answers : t.answers = s.answers) (performed : t.performed = s.performed)
    (ended : t.ended = s.ended) (keeps : Keeps s t) : Sound t.raise := by
  refine sound.shrinks users reqId nofun (wire ▸ fun _ member => member) (answers ▸ fun _ member => member)
    (performed ▸ fun _ member => member) (fun id member => ?_) keeps nofun
  rcases List.mem_append.mp member with old | new
  · exact ended ▸ old
  · obtain ⟨c,_,same⟩ := Option.map_eq_some_iff.mp (Option.mem_toList.mp new)
    cases same

theorem Sound.breaks {s t : State} (sound : Sound s) (c d : Call) (rest : List Call) (was : s.stack = c :: rest)
    (frame : d.frame = c.frame) (users : t.users = s.users) (reqId : t.reqId = s.reqId) (wire : t.wire = s.wire)
    (answers : t.answers = s.answers) (performed : t.performed = s.performed) (ended : t.ended = s.ended)
    (keeps : Keeps s t) : Sound (t.broken autoReconnect maxRetries d rest) := by
  rw [State.broken]
  split_ifs
  · exact sound.raises users reqId wire answers performed ended keeps
  · refine sound.shrinks users reqId (fun b member => ?_) (wire ▸ fun _ member => member)
      (answers ▸ fun _ member => member) (performed ▸ fun _ member => member) (ended ▸ fun _ member => member) keeps ?_
    · rcases List.mem_cons.mp member with rfl | member
      · exact ⟨c,was ▸ List.mem_cons_self,frame.symm⟩
      · exact ⟨b,was ▸ List.mem_cons_of_mem c member,rfl⟩
    · intro b rest top active
      obtain ⟨rfl,_⟩ := List.cons.inj top
      exact absurd rfl active

/-- An activation begins under the next id. -/
theorem Sound.enters {s t : State} (sound : Sound s) (frame : Frame) (named : frame.id = s.reqId)
    (users : ∀ id ∈ t.users, id ∈ s.users ∨ id = s.reqId ∧ ∃ method, frame = .request s.reqId method)
    (reqId : t.reqId = s.reqId + 1) (stack : t.stack = ⟨frame,0,.sending⟩ :: s.stack) (wire : t.wire = s.wire)
    (answers : t.answers = s.answers ∧ t.sock = s.sock ∧ t.links = s.links ∨ t.answers = [])
    (performed : t.performed = s.performed) (ended : t.ended = s.ended) : Sound t := by
  have older (id : ℕ) (less : id < s.reqId) (user : id ∈ t.users) : id ∈ s.users := by
    rcases users id user with old | ⟨rfl,_⟩
    · exact old
    · exact absurd less (Nat.lt_irrefl _)
  have known (answer : Answer) (member : answer ∈ t.answers) : answer ∈ s.answers := by
    rcases answers with ⟨same,_⟩ | none
    · exact same ▸ member
    · exact absurd (none ▸ member) List.not_mem_nil
  constructor
  · intro id member
    rw [reqId]
    rcases users id member with old | ⟨rfl,_⟩
    · exact Nat.lt_succ_of_lt (sound.users id old)
    · exact Nat.lt_succ_self _
  · intro c member
    rw [reqId]
    rw [stack,List.mem_cons] at member
    rcases member with rfl | member
    · refine ⟨named ▸ Nat.lt_succ_self _,fun id token auth user => ?_⟩
      change frame = _ at auth
      rw [auth] at named
      rcases users id user with old | ⟨_,method,request⟩
      · exact absurd (sound.users id old) (named ▸ Nat.lt_irrefl _)
      · rw [auth] at request
        cases request
    · obtain ⟨less,apart⟩ := sound.stack c member
      refine ⟨Nat.lt_succ_of_lt less,fun id token auth user => apart id token auth (older id ?_ user)⟩
      rw [auth] at less
      exact less
  · intro e member
    rw [wire] at member
    obtain ⟨less,apart⟩ := sound.wire e member
    rw [reqId]
    refine ⟨Nat.lt_succ_of_lt less,fun id token auth user => apart id token auth (older id ?_ user)⟩
    rw [auth] at less
    exact less
  · intro id member
    obtain ⟨less,done⟩ := sound.answers id (known _ member)
    rw [reqId,performed]
    exact ⟨Nat.lt_succ_of_lt less,fun user => done (older id less user)⟩
  · intro id member
    obtain ⟨less,done⟩ := sound.ended id (ended ▸ member)
    rw [reqId,performed]
    exact ⟨Nat.lt_succ_of_lt less,fun user => done (older id less user)⟩
  · intro id member link connected
    rcases answers with ⟨same,sock,links⟩ | none
    · rw [links]
      exact sound.gated id (same ▸ member) link (sock ▸ connected)
    · exact absurd (none ▸ member) List.not_mem_nil
  · intro c rest top active again
    rw [stack] at top
    obtain ⟨rfl,_⟩ := List.cons.inj top
    exact absurd again (Nat.lt_irrefl _)

theorem Sound.leaves {s : State} (sound : Sound s) (c : Call) (rest : List Call) (later : List Answer)
    (was : s.stack = c :: rest) (here : s.answers = .result c.frame.id :: later) :
    Sound ({s with answers := later}.leave c rest) := by
  have taken : .result c.frame.id ∈ s.answers := here ▸ List.mem_cons_self
  have known (id : ℕ) (member : .result id ∈ later) : .result id ∈ s.answers := here ▸ List.mem_cons_of_mem _ member
  cases rest with
  | nil =>
    refine ⟨sound.users,nofun,sound.wire,fun id member => sound.answers id (known id member),fun id member => ?_,
      fun id member => sound.gated id (known id member),nofun⟩
    rcases List.mem_append.mp member with old | new
    · exact sound.ended id old
    · obtain ⟨rfl,_⟩ := Prod.mk.inj (List.mem_singleton.mp new)
      exact sound.answers c.frame.id taken
  | cons below rest =>
    refine sound.shrinks rfl rfl (fun b member => ?_) (fun _ member => member) known (fun _ member => member)
      (fun _ member => member) (keeps_refl s) (fun _ _ _ _ _ => sound.gated c.frame.id taken)
    rcases List.mem_cons.mp member with rfl | member
    · exact ⟨below,was ▸ List.mem_cons_of_mem c List.mem_cons_self,rfl⟩
    · exact ⟨b,was ▸ List.mem_cons_of_mem c (List.mem_cons_of_mem below member),rfl⟩

theorem Sound.gets {s : State} (sound : Sound s) (c : Call) (rest : List Call) (answer : Answer) (later : List Answer)
    (was : s.stack = c :: rest) (here : s.answers = answer :: later) :
    Sound ({s with answers := later}.got c rest answer) := by
  have skips : Sound {s with answers := later} :=
    sound.shrinks rfl rfl (fun b member => ⟨b,member,rfl⟩) (fun _ member => member)
      (fun _ member => here ▸ List.mem_cons_of_mem _ member) (fun _ member => member) (fun _ member => member)
      (keeps_refl s) sound.resent
  cases answer with
  | result id =>
    simp only [State.got]
    split_ifs with mine
    · exact sound.leaves c rest later was (mine ▸ here)
    · exact skips
  | error id =>
    simp only [State.got]
    split_ifs
    · exact skips.raises rfl rfl rfl rfl rfl rfl (keeps_refl _)
    · exact skips
  | other => exact skips

theorem Sound.writes {s : State} (sound : Sound s) (c : Call) (rest : List Call) (link : ℕ) (was : s.stack = c :: rest)
    (phase : c.phase = .sending) :
    Sound {s.write link c.frame with stack := {c with phase := .receiving} :: rest} := by
  have here : c ∈ s.stack := was ▸ List.mem_cons_self
  have frames (b : Call) (member : b ∈ {c with phase := .receiving} :: rest) : ∃ a ∈ s.stack, a.frame = b.frame := by
    rcases List.mem_cons.mp member with rfl | member
    · exact ⟨c,here,rfl⟩
    · exact ⟨b,was ▸ List.mem_cons_of_mem c member,rfl⟩
  have resent (b : Call) (later : List Call) (top : {c with phase := .receiving} :: rest = b :: later)
      (_ : b.phase ≠ .reconnecting) (again : 0 < b.retries) (other : ℕ) (connected : s.sock = some other) :
      (s.links other).authenticated = true := by
    obtain ⟨rfl,_⟩ := List.cons.inj top
    exact sound.resent c rest was (by rw [phase]; exact nofun) again other connected
  have still : Sound {s with stack := {c with phase := .receiving} :: rest} :=
    sound.shrinks rfl rfl frames (fun _ member => member) (fun _ member => member) (fun _ member => member)
      (fun _ member => member) (keeps_refl s) resent
  have wire (e : ℕ × Frame) (member : e ∈ s.wire ++ [(link,c.frame)]) :
      e.2.id < s.reqId ∧ ∀ id token, e.2 = .auth id token → id ∉ s.users := by
    rcases List.mem_append.mp member with old | new
    · exact sound.wire e old
    · rw [List.mem_singleton.mp new]
      exact sound.stack c here
  obtain ⟨frame,retries,_⟩ := c
  cases frame with
  | auth id token =>
    simp only [State.write]
    split_ifs
    · exact still
    · exact ⟨still.users,still.stack,wire,still.answers,still.ended,still.gated,still.resent⟩
  | request id method =>
    simp only [State.write]
    split_ifs
    · exact still
    · exact ⟨still.users,still.stack,wire,still.answers,still.ended,still.gated,still.resent⟩

/-- A daemon brings a result over a connection it has accepted a token on. -/
theorem Sound.brings {s : State} (sound : Sound s) (link id : ℕ) (less : id < s.reqId)
    (done : id ∈ s.users → id ∈ s.performed) (authenticated : (s.links link).authenticated = true) :
    Sound (s.answer link (.result id)) := by
  rw [State.answer]
  split_ifs with here
  · refine ⟨sound.users,sound.stack,sound.wire,fun other member => ?_,sound.ended,fun other member => ?_,sound.resent⟩
    · rcases List.mem_append.mp member with old | new
      · exact sound.answers other old
      · obtain ⟨rfl⟩ := Answer.result.inj (List.mem_singleton.mp new)
        exact ⟨less,done⟩
    · rcases List.mem_append.mp member with old | new
      · exact sound.gated other old
      · intro now connected
        obtain ⟨rfl⟩ := Option.some.inj (here.symm.trans connected)
        exact authenticated
  · exact sound

theorem error_ne_result (id other : ℕ) : Answer.error id ≠ .result other := Answer.noConfusion

theorem Sound.says {s : State} (sound : Sound s) (link : ℕ) (answer : Answer) (none : ∀ id, answer ≠ .result id) :
    Sound (s.answer link answer) := by
  rw [State.answer]
  split_ifs
  · refine sound.shrinks rfl rfl (fun b member => ⟨b,member,rfl⟩) (fun _ member => member) (fun id member => ?_)
      (fun _ member => member) (fun _ member => member) (keeps_refl s) sound.resent
    rcases List.mem_append.mp member with old | new
    · exact old
    · exact absurd (List.mem_singleton.mp new).symm (none id)
  · exact sound

theorem Sound.handles {s : State} (sound : Sound s) (link : ℕ) (reply : Reply) (frame : Frame) (less : frame.id < s.reqId)
    (apart : ∀ id token, frame = .auth id token → id ∉ s.users) : Sound (s.handle link reply frame) := by
  cases frame with
  | auth id token =>
    have accepts : Sound (s.change link Link.accept) := by
      have keeps := keeps_change s link Link.accept (fun _ _ => rfl)
      exact sound.shrinks rfl rfl (fun b member => ⟨b,member,rfl⟩) (fun _ member => member) (fun _ member => member)
        (fun _ member => member) (fun _ member => member) keeps
        (fun c rest top active again now connected =>
          (keeps now connected).2 (sound.resent c rest top active again now connected))
    simp only [State.handle]
    split
    · split
      · exact accepts
      · exact accepts.brings link id less (fun user => absurd user (apart id token rfl))
          (congrArg Link.authenticated (Function.update_self link _ s.links))
    · split
      · exact sound
      · exact sound.says link (.error id) (error_ne_result id)
  | request id method =>
    have performs : Sound {s with performed := s.performed ++ [id]} :=
      sound.shrinks rfl rfl (fun b member => ⟨b,member,rfl⟩) (fun _ member => member) (fun _ member => member)
        (fun _ member => List.mem_append_left _ member) (fun _ member => member) (keeps_refl s) sound.resent
    simp only [State.handle]
    split
    next authenticated =>
      cases reply with
      | result => exact performs.brings link id less (fun _ => List.mem_append_right _ List.mem_cons_self) authenticated
      | error => exact performs.says link (.error id) (error_ne_result id)
      | nothing => exact performs
    · split
      · exact sound
      · exact sound.says link (.error id) (error_ne_result id)

theorem Sound.steps {s : State} (sound : Sound s) (act : Act) : Sound (step autoReconnect maxRetries s act) := by
  cases act with
  | call method =>
    simp only [step]
    split
    next idle =>
      refine sound.enters (.request s.reqId method) rfl (fun id member => ?_) rfl rfl rfl (.inl ⟨rfl,rfl,rfl⟩) rfl rfl
      rcases List.mem_append.mp member with old | new
      · exact .inl old
      · exact .inr ⟨List.mem_singleton.mp new,method,rfl⟩
    · exact sound
  | authenticate token =>
    simp only [step]
    split
    · exact sound.enters (.auth s.reqId token) rfl (fun _ member => .inl member) rfl rfl rfl (.inl ⟨rfl,rfl,rfl⟩) rfl rfl
    · exact sound
  | next =>
    simp only [step]
    split_ifs
    · exact sound.shrinks rfl rfl (fun b member => ⟨b,member,rfl⟩) (fun _ member => member)
        (fun _ member => List.mem_of_mem_tail member) (fun _ member => member) (fun _ member => member)
        (keeps_refl s) sound.resent
    · exact sound
  | send whole =>
    simp only [step]
    split
    next frame retries rest was =>
      simp only [State.sendFrame]
      split
      · exact sound.raises rfl rfl rfl rfl rfl rfl (keeps_refl s)
      next link _ =>
        split_ifs
        · exact sound.breaks autoReconnect maxRetries _ _ rest was rfl rfl rfl rfl rfl rfl rfl (keeps_refl s)
        · exact sound.writes _ rest link was rfl
        · exact sound.breaks autoReconnect maxRetries _ _ rest was rfl rfl rfl rfl rfl rfl rfl
            (keeps_change s link Link.cut (fun _ same => same))
    · exact sound
  | receive =>
    simp only [step]
    split
    next frame retries rest was =>
      simp only [State.recvFrame]
      split
      · exact sound.raises rfl rfl rfl rfl rfl rfl (keeps_refl s)
      · split
        · exact sound
        · split
          · split_ifs
            · exact sound
            · exact sound.breaks autoReconnect maxRetries _ _ rest was rfl rfl rfl rfl rfl rfl rfl (keeps_refl s)
          next answer later here => exact sound.gets _ rest answer later was here
    · exact sound
  | timeout within =>
    simp only [step]
    split
    next frame retries rest was =>
      simp only [State.timesOut]
      split
      · exact sound.raises rfl rfl rfl rfl rfl rfl (keeps_refl s)
      next link _ =>
        exact sound.breaks autoReconnect maxRetries _ _ rest was rfl rfl rfl rfl rfl rfl rfl
          (keeps_change s link (fun l => l.misreads within) (fun _ same => same))
    · rw [State.misses]
      split
      · exact sound
      next link _ =>
        have keeps := keeps_change s link (fun l => l.misreads within) (fun _ same => same)
        exact sound.shrinks rfl rfl (fun b member => ⟨b,member,rfl⟩) (fun _ member => member) (fun _ member => member)
          (fun _ member => member) (fun _ member => member) keeps
          (fun c rest top active again now connected =>
            (keeps now connected).2 (sound.resent c rest top active again now connected))
    · exact sound
  | garbled =>
    simp only [step]
    split
    · exact sound.raises rfl rfl rfl rfl rfl rfl (keeps_refl s)
    · exact sound
  | reconnect daemon token =>
    simp only [step]
    split
    · cases daemon with
      | none => exact sound.raises rfl rfl rfl rfl rfl rfl (keeps_closed s _ rfl)
      | some daemon =>
        exact sound.enters (.auth s.reqId token) rfl (fun _ member => .inl member) rfl rfl rfl (.inr rfl) rfl rfl
    · exact sound
  | serve link reply =>
    simp only [step]
    split_ifs
    · split
      next e found =>
        obtain ⟨less,apart⟩ := sound.wire e (List.mem_of_find?_eq_some found)
        have reads : Sound {s with wire := s.wire.eraseP (fun e => e.1 = link)} :=
          sound.shrinks rfl rfl (fun b member => ⟨b,member,rfl⟩) (fun _ member => List.mem_of_mem_eraseP member)
            (fun _ member => member) (fun _ member => member) (fun _ member => member) (keeps_refl s) sound.resent
        exact reads.handles link reply e.2 less apart
      · exact sound
    · exact sound
  | push =>
    simp only [step]
    split
    · split_ifs
      · exact sound.says _ .other (fun _ other => Answer.noConfusion other)
      · exact sound
    · exact sound
  | hangUp link =>
    have keeps := keeps_change s link Link.drop (fun _ same => same)
    exact sound.shrinks rfl rfl (fun b member => ⟨b,member,rfl⟩) (fun _ member => List.mem_of_mem_filter member)
      (fun _ member => member) (fun _ member => member) (fun _ member => member) keeps
      (fun c rest top active again now connected =>
        (keeps now connected).2 (sound.resent c rest top active again now connected))

/-! Whole runs. -/

structure Inv (s : State) : Prop where
  bounded : Bounded maxRetries s
  sound : Sound s
  carried : ∀ id, s.carried id ≤ s.sent.count id

theorem inv_start (daemon : String) : Inv maxRetries (start daemon) :=
  ⟨bounded_start maxRetries daemon,sound_start daemon,fun _ => Nat.le_refl 0⟩

theorem inv_step (s : State) (act : Act) (inv : Inv maxRetries s) :
    Inv maxRetries (step autoReconnect maxRetries s act) where
  bounded := bounded_step autoReconnect maxRetries s act inv.bounded
  sound := inv.sound.steps autoReconnect maxRetries act
  carried id := by
    by_cases sends : Sends s act id
    · obtain ⟨carried,sent⟩ := sends_step autoReconnect maxRetries s act id sends
      rw [carried,sent]
      exact Nat.succ_le_succ (inv.carried id)
    · obtain ⟨carried,sent⟩ := rests_step autoReconnect maxRetries s act id sends
      rw [sent]
      exact Nat.le_trans carried (inv.carried id)

/-- Each request has been performed, or waits to be read where it will be, at most once in all. -/
def AtMostOnce (s : State) : Prop := ∀ id, s.carried id ≤ 1

/-- A request goes out only when no daemon has performed it or can still read a copy. -/
def Settled (s : State) (act : Act) : Prop := ∀ id, Sends s act id → s.carried id = 0

/-- What goes out again goes out behind the gate. -/
def PastGate (s : State) (act : Act) : Prop :=
  ∀ id link, Sends s act id → id ∈ s.sent → s.sock = some link → (s.links link).authenticated = true

theorem settled_iff (s : State) (act : Act) (once : AtMostOnce s) :
    AtMostOnce (step autoReconnect maxRetries s act) ↔ Settled s act := by
  constructor
  · intro after id sends
    have more := (sends_step autoReconnect maxRetries s act id sends).1
    have most := after id
    omega
  · intro settled id
    by_cases sends : Sends s act id
    · exact Nat.le_of_eq ((sends_step autoReconnect maxRetries s act id sends).1.trans (by rw [settled id sends]))
    · exact Nat.le_trans (rests_step autoReconnect maxRetries s act id sends).carried (once id)

theorem past_gate (s : State) (act : Act) (inv : Inv maxRetries s) : PastGate s act := by
  intro id link sends again connected
  obtain ⟨_,method,retries,rest,_,was,_⟩ := sends
  have copies := inv.bounded.copies _ (was ▸ List.mem_cons_self)
  have some_ : 0 < s.sent.count id := List.count_pos_iff.mpr again
  have retried : 0 < retries := Nat.lt_of_lt_of_le some_ copies
  exact inv.sound.resent _ rest was nofun retried link connected

/-- Over every run: no request goes out more often than `max_retries` allows, none is performed more often than
it went out, none returns that has not been performed, and every copy but the first goes out behind the gate.
What has been performed of a request and what a daemon can still read of it are at most one copy exactly when
it is only sent again where none has been performed and none can be read. -/
theorem performed_of_run (daemon : String) (acts : List Act) :
    let go := step autoReconnect maxRetries
    let s := run go (start daemon) acts
    (∀ id, s.performed.count id ≤ s.carried id ∧ s.carried id ≤ s.sent.count id ∧ s.sent.count id ≤ maxRetries + 1) ∧
      (∀ id ∈ s.users, (id,.returned) ∈ s.ended → id ∈ s.performed) ∧
      Along go PastGate (start daemon) acts ∧
      (Always go AtMostOnce (start daemon) acts ↔ Along go Settled (start daemon) acts) := by
  intro go s
  have inv : Inv maxRetries s :=
    run_always go (Inv maxRetries) (inv_step autoReconnect maxRetries) (start daemon) acts (inv_start maxRetries daemon)
  refine ⟨fun id => ⟨Nat.le_add_right _ _,inv.carried id,inv.bounded.most id⟩,?_,?_,?_⟩
  · intro id user returned
    exact (inv.sound.ended id returned).2 user
  · have free : Along go (fun _ _ => True) (start daemon) acts :=
      along_inputs go (fun _ => True) (start daemon) acts (fun _ _ => trivial)
    exact along_of_along go (fun _ _ => True) PastGate (Inv maxRetries)
      (fun t act now _ => inv_step autoReconnect maxRetries t act now) (fun t act now _ => past_gate maxRetries t act now)
      (start daemon) acts (inv_start maxRetries daemon) free
  · exact always_iff_along go Settled AtMostOnce (fun _ => True) (fun _ => True) (fun _ _ _ _ => trivial)
      (fun t act _ _ once => settled_iff autoReconnect maxRetries t act once) (start daemon) acts (fun _ _ => trivial)
      trivial (fun _ => Nat.zero_le 1)

/-- A daemon that performs a request too slowly for the client performs it again. -/
example : (run (step true 3) (start "secret") [.authenticate "secret",.send true,.serve 0 .result,.receive,
    .call "agent.spawn",.send true,.timeout false,.reconnect (some "secret") "secret",.serve 0 .result,
    .send true,.serve 1 .result,.receive,.send true,.serve 1 .result,.receive]).performed = [2,2] := by
  decide

end Call

end ClawKernel.Sdk.Reconnect
