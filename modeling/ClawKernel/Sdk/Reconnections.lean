import Mathlib.Algebra.BigOperators.Intervals
import Mathlib.Algebra.BigOperators.Ring.Finset
import ClawKernel.Sdk.Reconnect

/-! How often a client connects anew, and what a refused connection leaves of it. -/
namespace ClawKernel.Sdk.Reconnect
open Lib.Runs

section Call
variable (autoReconnect : Bool) (maxRetries : ℕ)

/-- What a call opens that uses all its retries, as do the calls within it, down to some number of levels. -/
def opens (retries : ℕ) : ℕ → ℕ
  | 0 => 0
  | levels + 1 => retries * (1 + opens retries levels)

/-- What one retry opens. -/
def each (retries : ℕ) : ℕ → ℕ
  | 0 => 0
  | levels + 1 => 1 + opens retries levels

theorem opens_eq_each (retries levels : ℕ) : opens retries levels = retries * each retries levels := by
  cases levels <;> rfl

theorem opens_eq_sum (retries levels : ℕ) : opens retries levels = ∑ i ∈ Finset.range levels, retries ^ (i + 1) := by
  induction levels with
  | zero => rfl
  | succ levels ih =>
    rw [opens,ih,Finset.sum_range_succ',Nat.mul_add,Finset.mul_sum,Nat.add_comm]
    simp only [pow_succ',zero_add,pow_zero,mul_one]

/-- The retries a call may take. -/
def allowed : ℕ := if autoReconnect then maxRetries else 0

/-- What the activations may still open, down to a depth. -/
def left (deep : ℕ) : List Call → ℕ
  | [] => 0
  | c :: rest =>
    (allowed autoReconnect maxRetries - c.retries) * each (allowed autoReconnect maxRetries) (deep - (rest.length + 1)) +
      left deep rest

/-- What the innermost one is about to open. -/
def due (deep : ℕ) : List Call → ℕ
  | ⟨_,_,.reconnecting⟩ :: rest => each (allowed autoReconnect maxRetries) (deep - (rest.length + 1))
  | _ => 0

/-- The bound on what has been opened since a state from which no call was under way. -/
structure Within (before : State) (deep : ℕ) (s : State) : Prop where
  calls : before.calls ≤ s.calls
  opened : s.deepest ≤ deep →
    s.opened + left autoReconnect maxRetries deep s.stack + due autoReconnect maxRetries deep s.stack ≤
      before.opened + (s.calls - before.calls) * opens (allowed autoReconnect maxRetries) (deep - 1)

theorem due_nil (deep : ℕ) : due autoReconnect maxRetries deep [] = 0 := rfl

theorem due_active (deep : ℕ) (c : Call) (rest : List Call) (active : c.phase ≠ .reconnecting) :
    due autoReconnect maxRetries deep (c :: rest) = 0 := by
  obtain ⟨frame,retries,phase⟩ := c
  cases phase with
  | reconnecting => exact absurd rfl active
  | _ => rfl

theorem due_reconnecting (deep : ℕ) (c : Call) (rest : List Call) (phase : c.phase = .reconnecting) :
    due autoReconnect maxRetries deep (c :: rest) =
      each (allowed autoReconnect maxRetries) (deep - (rest.length + 1)) := by
  obtain ⟨frame,retries,_⟩ := c
  cases phase
  rfl

theorem within_moves (before : State) (deep : ℕ) (s t : State) (within : Within autoReconnect maxRetries before deep s)
    (moves : Moves autoReconnect maxRetries s t) : Within autoReconnect maxRetries before deep t := by
  obtain ⟨since,within⟩ := within
  cases moves with
  | stays still sent stack =>
    refine ⟨still.calls ▸ since,?_⟩
    rw [still.opened,still.calls,stack,still.deepest]
    exact within
  | raises still sent stack =>
    refine ⟨still.calls ▸ since,?_⟩
    intro depth
    have bound := within (still.deepest ▸ depth)
    rw [still.opened,still.calls,stack,left,due_nil]
    omega
  | writes c rest was phase still sent stack =>
    refine ⟨still.calls ▸ since,?_⟩
    intro depth
    have bound := within (still.deepest ▸ depth)
    have idle : due autoReconnect maxRetries deep ({c with phase := .receiving} :: rest) = 0 :=
      due_active _ _ deep {c with phase := .receiving} rest Phase.noConfusion
    rw [still.opened,still.calls,stack,idle]
    rw [was] at bound
    exact Nat.le_trans (Nat.add_le_add_left (Nat.zero_le _) _) bound
  | breaks c rest was auto less still sent phase stack =>
    refine ⟨still.calls ▸ since,?_⟩
    intro depth
    have bound := within (still.deepest ▸ depth)
    rw [was,due_active _ _ _ _ _ phase,left] at bound
    rw [still.opened,still.calls,stack,due_reconnecting _ _ _ _ _ rfl,left]
    have one : allowed autoReconnect maxRetries - c.retries = allowed autoReconnect maxRetries - (c.retries + 1) + 1 := by
      rw [allowed,if_pos auto]
      omega
    rw [one,Nat.add_mul,Nat.one_mul] at bound
    simp only at bound ⊢
    omega
  | returns c rest was still sent stack =>
    refine ⟨still.calls ▸ since,?_⟩
    intro depth
    have bound := within (still.deepest ▸ depth)
    rw [was,left] at bound
    rw [still.opened,still.calls,stack]
    cases rest with
    | nil =>
      change s.opened + 0 + 0 ≤ _
      omega
    | cons below rest =>
      have idle : due autoReconnect maxRetries deep ({below with phase := .sending} :: rest) = 0 :=
        due_active _ _ deep {below with phase := .sending} rest Phase.noConfusion
      rw [left] at bound
      rw [resumed,idle,left]
      simp only at bound ⊢
      omega
  | begins frame idle named sent stack reqId opened calls deepest =>
    refine ⟨calls ▸ Nat.le_succ_of_le since,?_⟩
    intro depth
    have bound := within (by omega)
    have fresh : due autoReconnect maxRetries deep [⟨frame,0,.sending⟩] = 0 :=
      due_active _ _ deep ⟨frame,0,.sending⟩ [] Phase.noConfusion
    have another : s.calls + 1 - before.calls = s.calls - before.calls + 1 := Nat.succ_sub since
    rw [idle,left,due_nil] at bound
    rw [opened,calls,another,stack,left,left,fresh,Nat.add_mul,Nat.one_mul,opens_eq_each]
    rw [opens_eq_each] at bound
    simp only [List.length_nil,Nat.zero_add,Nat.sub_zero,Nat.add_zero] at bound ⊢
    omega
  | reopens frame c rest was phase named sent stack reqId opened calls deepest =>
    refine ⟨calls ▸ since,?_⟩
    intro depth
    have bound := within (by omega)
    have deeper : s.stack.length + 1 ≤ deep := by omega
    have level : deep - (rest.length + 1) = deep - (s.stack.length + 1) + 1 := by
      rw [was,List.length_cons] at deeper ⊢
      omega
    have now : due autoReconnect maxRetries deep s.stack =
        1 + opens (allowed autoReconnect maxRetries) (deep - (s.stack.length + 1)) := by
      conv_lhs => rw [was]
      rw [due_reconnecting _ _ _ _ _ phase,level,each]
    have fresh : due autoReconnect maxRetries deep (⟨frame,0,.sending⟩ :: s.stack) = 0 :=
      due_active _ _ deep ⟨frame,0,.sending⟩ s.stack Phase.noConfusion
    rw [now,opens_eq_each _ (deep - (s.stack.length + 1))] at bound
    rw [opened,calls,stack,left,fresh]
    simp only [Nat.sub_zero]
    omega

/-- The client has a connection over which nothing is under way, to a daemon that takes the token. -/
structure Ready (token : String) (s : State) (link : ℕ) : Prop where
  connected : s.sock = some link
  good : ∃ authenticated, s.links link = ⟨token,authenticated,true,false,false⟩
  unread : ∀ e ∈ s.wire, e.1 ≠ link
  answers : s.answers = []
  known : link < s.opened
  wire : ∀ e ∈ s.wire, e.1 < s.opened

/-- The handshake of an activation that succeeds. -/
theorem passes (token : String) (s : State) (link id retries : ℕ) (rest : List Call) (ready : Ready token s link)
    (was : s.stack = ⟨.auth id token,retries,.sending⟩ :: rest) :
    run (step autoReconnect maxRetries) s [.send true,.serve link .result,.receive] =
      State.leave {s.change link Link.accept with answers := []} ⟨.auth id token,retries,.receiving⟩ rest := by
  obtain ⟨authenticated,good⟩ := ready.good
  have sends : step autoReconnect maxRetries s (.send true) =
      {s with wire := s.wire ++ [(link,.auth id token)], stack := ⟨.auth id token,retries,.receiving⟩ :: rest} := by
    simp only [step,was,State.sendFrame,ready.connected,good,State.write]
    rfl
  have finds : (s.wire ++ [(link,Frame.auth id token)]).find? (fun e => e.1 = link) = some (link,.auth id token) := by
    have none : s.wire.find? (fun e => e.1 = link) = none :=
      List.find?_eq_none.mpr (fun e member => by simpa using ready.unread e member)
    rw [List.find?_append,none,Option.none_or,List.find?_cons_of_pos (by simp)]
  have erases : (s.wire ++ [(link,Frame.auth id token)]).eraseP (fun e => e.1 = link) = s.wire := by
    rw [List.eraseP_append_right _ (fun e member => by simpa using ready.unread e member),
      List.eraseP_cons_of_pos (by simp),List.append_nil]
  have serves : step autoReconnect maxRetries
      {s with wire := s.wire ++ [(link,.auth id token)], stack := ⟨.auth id token,retries,.receiving⟩ :: rest}
        (.serve link .result) =
      {s.change link Link.accept with
        stack := ⟨.auth id token,retries,.receiving⟩ :: rest
        answers := [.result id]} := by
    simp only [step,good,finds,erases,State.handle,State.change,State.answer,ready.connected,ready.answers,reduceIte,
      List.nil_append,reduceCtorEq]
  have receives : step autoReconnect maxRetries
      {s.change link Link.accept with
        stack := ⟨.auth id token,retries,.receiving⟩ :: rest
        answers := [.result id]} .receive =
      State.leave {s.change link Link.accept with answers := []} ⟨.auth id token,retries,.receiving⟩ rest := by
    simp only [step,State.recvFrame,State.change,ready.connected,Function.update_self,good,Link.accept,State.got,
      Frame.id,reduceIte,Bool.false_eq_true]
    cases rest <;> rfl
  change step autoReconnect maxRetries (step autoReconnect maxRetries (step autoReconnect maxRetries s (.send true))
    (.serve link .result)) .receive = _
  rw [sends,serves,receives]

/-- A handshake given up, and a connection in its place. -/
theorem retries (token : String) (s : State) (link id count : ℕ) (rest : List Call) (ready : Ready token s link)
    (was : s.stack = ⟨.auth id token,count,.sending⟩ :: rest) (auto : autoReconnect = true) (less : count < maxRetries) :
    let t := run (step autoReconnect maxRetries) s [.send true,.timeout false,.reconnect (some token) token]
    Ready token t s.opened ∧ t.opened = s.opened + 1 ∧ t.deepest = max s.deepest (rest.length + 2) ∧ t.calls = s.calls ∧
      t.stack = ⟨.auth s.reqId token,0,.sending⟩ :: ⟨.auth id token,count + 1,.reconnecting⟩ :: rest ∧
      t.ended = s.ended := by
  obtain ⟨authenticated,good⟩ := ready.good
  have sends : step autoReconnect maxRetries s (.send true) =
      {s with wire := s.wire ++ [(link,.auth id token)], stack := ⟨.auth id token,count,.receiving⟩ :: rest} := by
    simp only [step,was,State.sendFrame,ready.connected,good,State.write]
    rfl
  have waits : step autoReconnect maxRetries
      {s with wire := s.wire ++ [(link,.auth id token)], stack := ⟨.auth id token,count,.receiving⟩ :: rest}
        (.timeout false) =
      {s.change link (fun l => l.misreads false) with
        wire := s.wire ++ [(link,.auth id token)]
        stack := ⟨.auth id token,count + 1,.reconnecting⟩ :: rest} := by
    simp only [step,State.timesOut,ready.connected,State.change,State.broken,auto]
    rw [if_neg (by simpa using less)]
  have connects : run (step autoReconnect maxRetries) s [.send true,.timeout false,.reconnect (some token) token] =
      State.reconnect {s.change link (fun l => l.misreads false) with
        wire := s.wire ++ [(link,.auth id token)]
        stack := ⟨.auth id token,count + 1,.reconnecting⟩ :: rest} token (some token) := by
    change step autoReconnect maxRetries (step autoReconnect maxRetries (step autoReconnect maxRetries s (.send true))
      (.timeout false)) (.reconnect (some token) token) = _
    rw [sends,waits]
    rfl
  intro t
  have reached : t = _ := connects
  have older (e : ℕ × Frame) (member : e ∈ s.wire ++ [(link,.auth id token)]) : e.1 < s.opened := by
    rcases List.mem_append.mp member with old | new
    · exact ready.wire e old
    · rw [List.mem_singleton.mp new]
      exact ready.known
  rw [reached]
  refine ⟨⟨rfl,⟨false,Function.update_self s.opened _ _⟩,fun e member => Nat.ne_of_lt (older e member),rfl,
    Nat.lt_succ_self _,fun e member => Nat.lt_succ_of_lt (older e member)⟩,rfl,rfl,rfl,rfl,rfl⟩

/-- What an activation comes to that opens what it can, down to some number of levels. -/
structure Comes (token : String) (s t : State) (link id count levels : ℕ) (rest : List Call) : Prop where
  ready : Ready token t link
  opened : t.opened = s.opened + count * each maxRetries levels
  deepest : t.deepest = max s.deepest (rest.length + 1 + if count = 0 then 0 else levels)
  calls : t.calls = s.calls
  stack : t.stack = resumed rest
  ended : t.ended = s.ended ++ if rest = [] then [(id,.returned)] else []

theorem comes_passes (token : String) (s : State) (link id retries count levels : ℕ) (rest : List Call)
    (ready : Ready token s link) (was : s.stack = ⟨.auth id token,retries,.sending⟩ :: rest)
    (deep : rest.length + 1 ≤ s.deepest) (last : count = 0 ∨ levels = 0) :
    Comes maxRetries token s
      (run (step autoReconnect maxRetries) s [.send true,.serve link .result,.receive]) link id count levels rest := by
  rw [passes autoReconnect maxRetries token s link id retries rest ready was]
  have none : count * each maxRetries levels = 0 := by
    rcases last with rfl | rfl
    · exact Nat.zero_mul _
    · exact Nat.mul_zero _
  have level : (if count = 0 then 0 else levels) = 0 := by split_ifs <;> omega
  have deepest : s.deepest = max s.deepest (rest.length + 1 + if count = 0 then 0 else levels) := by
    rw [level]
    exact (max_eq_left deep).symm
  obtain ⟨authenticated,good⟩ := ready.good
  have accepted : (s.change link Link.accept).links link = ⟨token,true,true,false,false⟩ := by
    refine (Function.update_self link _ s.links).trans ?_
    rw [good]
    rfl
  have stays : Ready token {s.change link Link.accept with answers := []} link :=
    ⟨ready.connected,⟨true,accepted⟩,ready.unread,rfl,ready.known,ready.wire⟩
  cases rest with
  | nil =>
    exact ⟨⟨stays.connected,stays.good,stays.unread,rfl,stays.known,stays.wire⟩,none ▸ rfl,
      deepest,rfl,rfl,rfl⟩
  | cons below rest =>
    exact ⟨⟨stays.connected,stays.good,stays.unread,rfl,stays.known,stays.wire⟩,none ▸ rfl,
      deepest,rfl,rfl,(List.append_nil _).symm⟩

theorem storm (token : String) (auto : autoReconnect = true) (levels : ℕ) : ∀ (count : ℕ) (s : State)
    (link id retried : ℕ) (rest : List Call), Ready token s link →
    s.stack = ⟨.auth id token,retried,.sending⟩ :: rest → retried + count = maxRetries → rest.length + 1 ≤ s.deepest →
    ∃ acts last, Comes maxRetries token s (run (step autoReconnect maxRetries) s acts) last id count levels rest := by
  induction levels with
  | zero =>
    intro count s link id retried rest ready was _ deep
    exact ⟨_,link,comes_passes autoReconnect maxRetries token s link id retried count 0 rest ready was deep (.inr rfl)⟩
  | succ levels ih =>
    intro count
    induction count with
    | zero =>
      intro s link id retried rest ready was _ deep
      exact ⟨_,link,comes_passes autoReconnect maxRetries token s link id retried 0 (levels + 1) rest ready was deep
        (.inl rfl)⟩
    | succ count again =>
      intro s link id retried rest ready was left deep
      obtain ⟨fresh,opened,deepest,calls,stack,ended⟩ :=
        retries autoReconnect maxRetries token s link id retried rest ready was auto (by omega)
      obtain ⟨inner,middle,nested⟩ := ih maxRetries _ s.opened s.reqId 0 _ fresh stack (Nat.zero_add _)
        (by rw [deepest]; exact le_max_right _ _)
      obtain ⟨outer,last,comes⟩ := again _ middle id (retried + 1) rest nested.ready nested.stack (by omega) (by
        rw [nested.deepest,deepest]
        omega)
      refine ⟨[.send true,.timeout false,.reconnect (some token) token] ++ inner ++ outer,last,?_⟩
      rw [run_append,run_append]
      have some_ : ¬maxRetries = 0 := by omega
      refine ⟨comes.ready,?_,?_,?_,comes.stack,?_⟩
      · rw [comes.opened,nested.opened,opened,Nat.succ_mul,each,opens_eq_each]
        omega
      · rw [comes.deepest,nested.deepest,deepest,if_neg some_,if_neg (Nat.succ_ne_zero count)]
        rw [List.length_cons]
        split_ifs <;> omega
      · rw [comes.calls,nested.calls,calls]
      · rw [comes.ended,nested.ended,ended,if_neg (List.cons_ne_nil _ _),List.append_nil]

/-- Each retry authenticates by a call with retries of its own: `max_retries` bounds what one activation opens,
and a power of it what a call opens, to the depth its activations reach. The depth is counted anew from any
state in which no call is under way. The bound is reached at every depth. -/
theorem reconnections_of_run (daemon : String) :
    (∀ s : State, s.stack = [] → ∀ acts, let t := run (step autoReconnect maxRetries) {s with deepest := 0} acts
      t.opened ≤ s.opened +
        (t.calls - s.calls) * ∑ i ∈ Finset.range (t.deepest - 1), allowed autoReconnect maxRetries ^ (i + 1)) ∧
    (autoReconnect = true → 0 < maxRetries → ∀ depth, ∃ acts,
      let s := run (step autoReconnect maxRetries) (start daemon) acts
      s.calls = 1 ∧ s.ended = [(1,.returned)] ∧ s.deepest = depth + 1 ∧
        s.opened = 1 + ∑ i ∈ Finset.range depth, maxRetries ^ (i + 1)) := by
  constructor
  · intro s idle acts t
    have initially : Within autoReconnect maxRetries s t.deepest {s with deepest := 0} := by
      refine ⟨Nat.le_refl _,?_⟩
      intro _
      dsimp only
      rw [idle,left,due_nil]
      omega
    have within : Within autoReconnect maxRetries s t.deepest t := by
      refine run_always (step autoReconnect maxRetries) (Within autoReconnect maxRetries s t.deepest) ?_
        {s with deepest := 0} acts initially
      exact fun u act within => within_moves autoReconnect maxRetries s t.deepest u _ within
        (step_moves autoReconnect maxRetries u act)
    rw [← opens_eq_sum]
    exact Nat.le_trans (by omega) (within.opened (Nat.le_refl _))
  · intro auto some_ depth
    let begun := step autoReconnect maxRetries (start daemon) (.authenticate daemon)
    have ready : Ready daemon begun 0 := ⟨rfl,⟨false,rfl⟩,nofun,rfl,Nat.zero_lt_one,nofun⟩
    obtain ⟨acts,last,comes⟩ := storm autoReconnect maxRetries daemon auto depth maxRetries begun 0 1 0 [] ready rfl
      (Nat.zero_add _) (Nat.le_refl 1)
    refine ⟨.authenticate daemon :: acts,comes.calls,comes.ended,?_,?_⟩
    · refine comes.deepest.trans ?_
      rw [if_neg (Nat.ne_of_gt some_)]
      change max 1 (0 + 1 + depth) = _
      omega
    · refine comes.opened.trans ?_
      rw [← opens_eq_sum,opens_eq_each]
      rfl

/-- One retry, one level down. -/
theorem reconnections_of_run_once : ∃ acts,
    let s := run (step true 1) (start "secret") acts
    s.calls = 1 ∧ s.ended = [(1,.returned)] ∧ s.deepest = 2 ∧ s.opened = 1 + ∑ i ∈ Finset.range 1, 1 ^ (i + 1) :=
  (reconnections_of_run true 1 "secret").2 rfl Nat.zero_lt_one 1

/-! A refused connection. -/

/-- The transport is closed, and at most one call has begun since, which has yet to find out. -/
structure Closed (before s : State) : Prop where
  sock : s.sock = none
  stack : s.stack = [] ∨ ∃ c, s.stack = [c] ∧ c.phase = .sending
  opened : s.opened = before.opened
  sent : s.sent = before.sent
  ended : ∃ raised : List ℕ, s.ended = before.ended ++ raised.map (fun id => (id,Outcome.raised))

theorem Closed.raises {before s : State} (closed : Closed before s) : Closed before s.raise where
  sock := closed.sock
  stack := .inl rfl
  opened := closed.opened
  sent := closed.sent
  ended := by
    obtain ⟨raised,ended⟩ := closed.ended
    rcases s.stack.getLast?.eq_none_or_eq_some with none | ⟨c,some_⟩
    · refine ⟨raised,?_⟩
      rw [State.raise,none,ended]
      exact List.append_nil _
    · refine ⟨raised ++ [c.frame.id],?_⟩
      rw [State.raise,some_,ended,List.map_append,List.append_assoc]
      rfl

/-- What the daemons still do on connections the client has left. -/
theorem Closed.handles {before s : State} (closed : Closed before s) (link : ℕ) (reply : Reply) (frame : Frame) :
    Closed before (s.handle link reply frame) := by
  have silent (t : State) (sock : t.sock = none) (answer : Answer) : t.answer link answer = t := by
    rw [State.answer,sock]
    exact if_neg (Option.some_ne_none link).symm
  have accepts : Closed before (s.change link Link.accept) :=
    ⟨closed.sock,closed.stack,closed.opened,closed.sent,closed.ended⟩
  cases frame with
  | auth id token =>
    simp only [State.handle,silent s closed.sock,silent (s.change link Link.accept) closed.sock]
    split_ifs
    · exact accepts
    · exact accepts
    · exact closed
    · exact closed
  | request id method =>
    have performs : Closed before {s with performed := s.performed ++ [id]} :=
      ⟨closed.sock,closed.stack,closed.opened,closed.sent,closed.ended⟩
    simp only [State.handle,silent s closed.sock,silent {s with performed := s.performed ++ [id]} closed.sock]
    split_ifs
    · cases reply <;> exact performs
    · exact closed
    · exact closed

theorem Closed.steps {before s : State} (closed : Closed before s) (act : Act) :
    Closed before (step autoReconnect maxRetries s act) := by
  have idle (frame : Frame) (retries : ℕ) (phase : Phase) (rest : List Call) (was : s.stack = ⟨frame,retries,phase⟩ :: rest)
      (active : phase ≠ .sending) (holds : Prop) : holds := by
    rcases closed.stack with none | ⟨c,one,sending⟩
    · cases none.symm.trans was
    · obtain ⟨rfl,_⟩ := List.cons.inj (one.symm.trans was)
      exact absurd sending active
  cases act with
  | call method =>
    simp only [step]
    split
    next none =>
      exact ⟨closed.sock,.inr ⟨⟨.request s.reqId method,0,.sending⟩,congrArg _ none,rfl⟩,closed.opened,closed.sent,
        closed.ended⟩
    · exact closed
  | authenticate token =>
    simp only [step]
    split
    next none =>
      exact ⟨closed.sock,.inr ⟨⟨.auth s.reqId token,0,.sending⟩,congrArg _ none,rfl⟩,closed.opened,closed.sent,
        closed.ended⟩
    · exact closed
  | next =>
    simp only [step]
    split_ifs
    · exact ⟨closed.sock,closed.stack,closed.opened,closed.sent,closed.ended⟩
    · exact closed
  | send whole =>
    simp only [step]
    split
    · simp only [State.sendFrame,closed.sock]
      exact closed.raises
    · exact closed
  | receive =>
    simp only [step]
    split
    next frame retries rest was => exact idle frame retries .receiving rest was Phase.noConfusion _
    · exact closed
  | timeout within =>
    simp only [step]
    split
    next frame retries rest was => exact idle frame retries .receiving rest was Phase.noConfusion _
    · rw [State.misses,closed.sock]
      exact closed
    · exact closed
  | garbled =>
    simp only [step]
    split
    · exact closed.raises
    · exact closed
  | reconnect daemon token =>
    simp only [step]
    split
    next frame retries rest was => exact idle frame retries .reconnecting rest was Phase.noConfusion _
    · exact closed
  | serve link reply =>
    simp only [step]
    split_ifs
    · split
      next e _ =>
        have reads : Closed before {s with wire := s.wire.eraseP (fun e => e.1 = link)} :=
          ⟨closed.sock,closed.stack,closed.opened,closed.sent,closed.ended⟩
        exact reads.handles link reply e.2
      · exact closed
    · exact closed
  | push =>
    simp only [step,closed.sock]
    exact closed
  | hangUp link => exact ⟨closed.sock,closed.stack,closed.opened,closed.sent,closed.ended⟩

/-- `reconnect` closes the socket before it connects: once a connection has been refused, whatever is left of
`max_retries`, no run of the client connects, sends a request or has a call return again. -/
theorem refused_for_good (daemon token : String) (before after : List Act) (c : Call) (rest : List Call)
    (was : (run (step autoReconnect maxRetries) (start daemon) before).stack = c :: rest)
    (due : c.phase = .reconnecting) :
    let refused := run (step autoReconnect maxRetries) (start daemon) (before ++ [.reconnect none token])
    let s := run (step autoReconnect maxRetries) refused after
    s.opened = refused.opened ∧ s.sent = refused.sent ∧
      ∃ raised : List ℕ, s.ended = refused.ended ++ raised.map (fun id => (id,Outcome.raised)) := by
  intro refused s
  have closes : Closed refused refused := by
    have raised : refused = State.raise {run (step autoReconnect maxRetries) (start daemon) before with sock := none} := by
      obtain ⟨frame,retries,_⟩ := c
      cases due
      change run (step autoReconnect maxRetries) (start daemon) (before ++ [.reconnect none token]) = _
      rw [run_append]
      change step autoReconnect maxRetries _ (.reconnect none token) = _
      simp only [step,was,State.reconnect]
    rw [raised]
    exact ⟨rfl,.inl rfl,rfl,rfl,[],(List.append_nil _).symm⟩
  have closed : Closed refused s :=
    run_always (step autoReconnect maxRetries) (Closed refused)
      (fun t act now => now.steps autoReconnect maxRetries act) refused after closes
  exact ⟨closed.opened,closed.sent,closed.ended⟩

def lostConnection : List Act := [.authenticate "secret",.send true,.timeout false]

/-- The first of three retries, after which the user calls again. -/
theorem refused_for_good_first :
    let refused := run (step true 3) (start "secret") (lostConnection ++ [.reconnect none "secret"])
    let s := run (step true 3) refused [.call "createSession",.send true]
    s.opened = refused.opened ∧ s.sent = refused.sent ∧
      ∃ raised : List ℕ, s.ended = refused.ended ++ raised.map (fun id => (id,Outcome.raised)) :=
  refused_for_good true 3 "secret" "secret" lostConnection [.call "createSession",.send true]
    ⟨.auth 1 "secret",1,.reconnecting⟩ [] (by rfl) rfl

end Call

end ClawKernel.Sdk.Reconnect
