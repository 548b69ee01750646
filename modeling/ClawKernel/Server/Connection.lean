import ClawKernel.Lib.LengthPrefix
import ClawKernel.Lib.Runs

/-! The read side of `handle_connection`: client bytes, the `read_frame` future
and the notification queue raced against it in one `select!`.
A branch that completes drops the other branch's future with the bytes it has
already taken from the socket. -/
namespace ClawKernel.Server.Connection
open Lib.LengthPrefix Lib.Runs

def maxFrame : Nat := 16 * 1024 * 1024

def notifyCapacity : Nat := 100

inductive IpcError where
  | connectionRefused
  | timeout
  | brokenPipe
  | invalidMessage
  | permissionDenied
  deriving DecidableEq, Repr

/-- The suspended `read_frame` future. Each of its two `read_exact` calls waits
only while its buffer is short of the requested length. -/
inductive Reading where
  | header (got : Bytes) (short : got.length < 4)
  | body (header got : Bytes) (four : header.length = 4) (fits : ofBe32 header ≤ maxFrame)
      (short : got.length < ofBe32 header)
  deriving DecidableEq, Repr

def Reading.start : Reading := .header [] (by decide)

def Reading.taken : Reading → Bytes
  | .header got _ => got
  | .body announced got _ _ _ => announced ++ got

@[simp] theorem taken_start : Reading.start.taken = [] := rfl

@[simp] theorem taken_header (got : Bytes) (short : got.length < 4) :
    (Reading.header got short).taken = got := rfl

@[simp] theorem taken_body (header got : Bytes) (four : header.length = 4)
    (fits : ofBe32 header ≤ maxFrame) (short : got.length < ofBe32 header) :
    (Reading.body header got four fits short).taken = header ++ got := rfl

theorem taken_incomplete (future : Reading) : split maxFrame future.taken = .incomplete := by
  cases future with
  | header got short => simp [split,short]
  | body announced got four fits short =>
    rw [taken_body,split_header maxFrame announced got four,if_neg (by omega),if_pos short]

inductive Polled where
  | pending (future : Reading)
  | ready (result : Except IpcError Bytes) (socket : Bytes)

def readBody (ended : Bool) (header got socket : Bytes) (four : header.length = 4)
    (fits : ofBe32 header ≤ maxFrame) : Polled :=
  if short : (got ++ socket).length < ofBe32 header then
    if ended then .ready (.error .brokenPipe) []
    else .pending (.body header (got ++ socket) four fits short)
  else
    .ready (.ok ((got ++ socket).take (ofBe32 header))) ((got ++ socket).drop (ofBe32 header))

/-- One poll of `read_frame` over the bytes that have arrived; `ended` says that
no further byte will. -/
def readFrame (ended : Bool) (future : Reading) (socket : Bytes) : Polled :=
  match future with
  | .header got _ =>
    if short : (got ++ socket).length < 4 then
      if ended then .ready (.error .brokenPipe) []
      else .pending (.header (got ++ socket) short)
    else if fits : ofBe32 ((got ++ socket).take 4) ≤ maxFrame then
      readBody ended ((got ++ socket).take 4) [] ((got ++ socket).drop 4)
        (by rw [List.length_take]; omega) fits
    else .ready (.error .invalidMessage) ((got ++ socket).drop 4)
  | .body announced got four fits _ => readBody ended announced got socket four fits

/-- What one poll can come to, in terms of `bytes`: those the future holds
followed by those that have arrived. -/
inductive Finds (ended : Bool) (bytes : Bytes) : Polled → Prop where
  | whole (payload rest : Bytes) (found : split maxFrame bytes = .whole payload rest) :
      Finds ended bytes (.ready (.ok payload) rest)
  | oversize (length : Nat) (rest : Bytes) (found : split maxFrame bytes = .oversize length)
      (fewer : rest.length < bytes.length) : Finds ended bytes (.ready (.error .invalidMessage) rest)
  | cut (found : split maxFrame bytes = .incomplete) (last : ended = true) :
      Finds ended bytes (.ready (.error .brokenPipe) [])
  | waits (later : Reading) (found : split maxFrame bytes = .incomplete) (more : ended = false)
      (kept : later.taken = bytes) : Finds ended bytes (.pending later)

private theorem readBody_finds (ended : Bool) (announced got socket : Bytes) (four : announced.length = 4)
    (fits : ofBe32 announced ≤ maxFrame) :
    Finds ended (announced ++ (got ++ socket)) (readBody ended announced got socket four fits) := by
  have found := split_header maxFrame announced (got ++ socket) four
  rw [if_neg (by omega)] at found
  unfold readBody
  split
  · rename_i short
    rw [if_pos short] at found
    cases last : ended with
    | false => exact .waits _ found rfl rfl
    | true => exact .cut found rfl
  · rename_i enough
    rw [if_neg enough] at found
    exact .whole _ _ found

theorem readFrame_finds (ended : Bool) (future : Reading) (socket : Bytes) :
    Finds ended (future.taken ++ socket) (readFrame ended future socket) := by
  cases future with
  | body announced got four fits short =>
    have polled := readBody_finds ended announced got socket four fits
    rwa [← List.append_assoc] at polled
  | header got short =>
    simp only [taken_header,readFrame]
    split
    · rename_i few
      have found : split maxFrame (got ++ socket) = .incomplete := by
        unfold Lib.LengthPrefix.split
        rw [if_pos few]
      cases last : ended with
      | false => exact .waits _ found rfl rfl
      | true => exact .cut found rfl
    · rename_i enough
      have four : ((got ++ socket).take 4).length = 4 := by rw [List.length_take]; omega
      split
      · rename_i fits
        have polled := readBody_finds ended ((got ++ socket).take 4) [] ((got ++ socket).drop 4) four fits
        simpa only [List.nil_append,List.take_append_drop] using polled
      · rename_i above
        have found := split_header maxFrame ((got ++ socket).take 4) ((got ++ socket).drop 4) four
        rw [List.take_append_drop,if_pos (by omega)] at found
        apply Finds.oversize _ _ found
        rw [List.length_drop]
        omega

inductive Status where
  | running
  | clientDisconnected
  | readError
  | writeFailed
  deriving DecidableEq, Repr

structure State where
  wire : Bytes
  hungUp : Bool
  socket : Bytes
  reading : Reading
  notify : List Bytes
  handled : List Bytes
  notified : List Bytes
  status : Status
  deriving DecidableEq, Repr

def connect (payloads : List Bytes) : State where
  wire := payloads.flatMap frame
  hungUp := false
  socket := []
  reading := .start
  notify := []
  handled := []
  notified := []
  status := .running

inductive Branch where
  | readFrame
  | recv
  deriving DecidableEq, Repr

/-- What the outside does to a connection, and one wake-up of its task: `poll`
names the branch that the unbiased `select!` tries first and says whether a
notification frame it writes is accepted by the socket. -/
inductive Event where
  | arrive (count : Nat)
  | hangUp
  | push (data : Bytes)
  | poll (first : Branch) (accepted : Bool)
  deriving DecidableEq, Repr

def ended (c : State) : Bool :=
  c.hungUp && c.wire.isEmpty

def frameArm (c : State) (result : Except IpcError Bytes) (socket : Bytes) : State :=
  match result with
  | .ok data => { c with socket := socket, reading := .start, handled := c.handled ++ [data] }
  | .error .brokenPipe => { c with socket := socket, reading := .start, status := .clientDisconnected }
  | .error _ => { c with socket := socket, reading := .start, status := .readError }

def notifyArm (c : State) (data : Bytes) (later : List Bytes) (accepted : Bool) : State :=
  if accepted then
    { c with reading := .start, notify := later, notified := c.notified ++ [data] }
  else { c with reading := .start, notify := later, status := .writeFailed }

def select (c : State) (first : Branch) (accepted : Bool) : State :=
  match first, c.notify with
  | .recv, data :: later => notifyArm c data later accepted
  | .recv, [] =>
    match readFrame (ended c) c.reading c.socket with
    | .ready result socket => frameArm c result socket
    | .pending future => { c with reading := future, socket := [] }
  | .readFrame, waiting =>
    match readFrame (ended c) c.reading c.socket with
    | .ready result socket => frameArm c result socket
    | .pending future =>
      match waiting with
      | data :: later => notifyArm { c with socket := [] } data later accepted
      | [] => { c with reading := future, socket := [] }

def step (c : State) : Event → State
  | .arrive count => { c with socket := c.socket ++ c.wire.take count, wire := c.wire.drop count }
  | .hangUp => { c with hungUp := true }
  | .push data => if c.status = .running ∧ c.notify.length < notifyCapacity then
      { c with notify := c.notify ++ [data] } else c
  | .poll first accepted => if c.status = .running then select c first accepted else c

/-- What one poll of the select can do. The read branch is reached with the other
order only when no notification waits. -/
inductive Selected (c : State) (first : Branch) (accepted : Bool) : State → Prop where
  | frame (payload rest : Bytes)
      (found : split maxFrame (c.reading.taken ++ c.socket) = .whole payload rest)
      (turn : first = .recv → c.notify = []) : Selected c first accepted (frameArm c (.ok payload) rest)
  | oversize (length : Nat) (rest : Bytes)
      (found : split maxFrame (c.reading.taken ++ c.socket) = .oversize length)
      (fewer : rest.length < (c.reading.taken ++ c.socket).length)
      (turn : first = .recv → c.notify = []) : Selected c first accepted (frameArm c (.error .invalidMessage) rest)
  | cut (found : split maxFrame (c.reading.taken ++ c.socket) = .incomplete) (last : ended c = true)
      (turn : first = .recv → c.notify = []) :
      Selected c first accepted (frameArm c (.error .brokenPipe) [])
  | waits (future : Reading) (found : split maxFrame (c.reading.taken ++ c.socket) = .incomplete)
      (kept : future.taken = c.reading.taken ++ c.socket) (quiet : c.notify = []) :
      Selected c first accepted { c with reading := future, socket := [], notify := [] }
  | notifiedFirst (data : Bytes) (later : List Bytes) (queued : c.notify = data :: later)
      (order : first = .recv) : Selected c first accepted (notifyArm c data later accepted)
  | notifiedSecond (data : Bytes) (later : List Bytes) (queued : c.notify = data :: later)
      (order : first = .readFrame) (found : split maxFrame (c.reading.taken ++ c.socket) = .incomplete)
      (more : ended c = false) :
      Selected c first accepted (notifyArm { c with socket := [] } data later accepted)

theorem select_selected (c : State) (first : Branch) (accepted : Bool) :
    Selected c first accepted (select c first accepted) := by
  have polled := readFrame_finds (ended c) c.reading c.socket
  unfold select
  generalize readFrame (ended c) c.reading c.socket = outcome at polled ⊢
  cases first with
  | recv =>
    cases queued : c.notify with
    | cons data later => exact .notifiedFirst data later queued rfl
    | nil =>
      cases polled with
      | whole payload rest found => exact .frame payload rest found (fun _ => queued)
      | oversize length rest found fewer => exact .oversize length rest found fewer (fun _ => queued)
      | cut found last => exact .cut found last (fun _ => queued)
      | waits future found more kept => exact .waits future found kept queued
  | readFrame =>
    cases polled with
    | whole payload rest found => exact .frame payload rest found nofun
    | oversize length rest found fewer => exact .oversize length rest found fewer nofun
    | cut found last => exact .cut found last nofun
    | waits future found more kept =>
      cases queued : c.notify with
      | cons data later => exact .notifiedSecond data later queued rfl found more
      | nil => exact .waits future found kept queued

/-- The client's frames in flight: those not handled yet, from the first byte
the pending read has taken. -/
structure InStep (payloads : List Bytes) (c : State) : Prop where
  inFlight : ∃ rest, payloads = c.handled ++ rest ∧
    c.reading.taken ++ c.socket ++ c.wire = rest.flatMap frame ∧ (c.status = .clientDisconnected → rest = [])
  readable : c.status ≠ .readError

/-- The select is polled at a frame boundary, as far as a notification is
waiting: when that branch wins, the read it abandons has taken nothing. -/
def AtBoundary (c : State) : Event → Prop
  | .poll first _ => c.status = .running → c.notify ≠ [] →
    match first with
    | .recv => c.reading.taken = []
    | .readFrame => c.reading.taken ++ c.socket = [] ∨
        split maxFrame (c.reading.taken ++ c.socket) ≠ .incomplete ∨ ended c = true
  | _ => True

instance atBoundaryDecidable (c : State) : ∀ event, Decidable (AtBoundary c event)
  | .poll .recv _ => inferInstanceAs (Decidable (c.status = .running → c.notify ≠ [] → c.reading.taken = []))
  | .poll .readFrame _ => inferInstanceAs (Decidable (c.status = .running → c.notify ≠ [] →
      c.reading.taken ++ c.socket = [] ∨ split maxFrame (c.reading.taken ++ c.socket) ≠ .incomplete ∨
        ended c = true))
  | .arrive _ | .hangUp | .push _ => isTrue trivial

private theorem ended_wire (c : State) (last : ended c = true) : c.wire = [] := by
  simp only [ended,Bool.and_eq_true,List.isEmpty_iff] at last
  exact last.2

private theorem notifyArm_inStep (payloads rest : List Bytes) (c : State) (running : c.status = .running)
    (data : Bytes) (later : List Bytes) (accepted : Bool) (parted : payloads = c.handled ++ rest)
    (stream : c.socket ++ c.wire = rest.flatMap frame) :
    InStep payloads (notifyArm c data later accepted) := by
  unfold notifyArm
  split
  · exact ⟨⟨rest,parted,by simpa using stream,by simp [running]⟩,by simp [running]⟩
  · exact ⟨⟨rest,parted,by simpa using stream,by simp⟩,by simp⟩

theorem select_inStep (payloads : List Bytes) (bounded : ∀ payload ∈ payloads, payload.length ≤ maxFrame)
    (c : State) (first : Branch) (accepted : Bool) (running : c.status = .running)
    (inStep : InStep payloads c) (boundary : AtBoundary c (.poll first accepted)) :
    InStep payloads (select c first accepted) := by
  obtain ⟨⟨rest,parted,stream,_⟩,_⟩ := inStep
  have front := split_stream maxFrame (by decide) rest
    (fun payload member => bounded payload (by rw [parted]; exact List.mem_append_right _ member))
    (c.reading.taken ++ c.socket) c.wire stream
  have outcome := select_selected c first accepted
  generalize select c first accepted = next at outcome
  cases outcome with
  | frame payload tail found turn =>
    rcases front with ⟨incomplete,_⟩ | ⟨head,later,remaining,rfl,whole,joined⟩
    · rw [incomplete] at found
      cases found
    · rw [whole,Split.whole.injEq] at found
      obtain ⟨rfl,rfl⟩ := found
      exact ⟨⟨later,by simp [frameArm,parted],by simpa [frameArm] using joined,by simp [frameArm,running]⟩,
        by simp [frameArm,running]⟩
  | oversize length tail found fewer turn =>
    rcases front with ⟨incomplete,_⟩ | ⟨_,_,_,_,whole,_⟩
    · rw [incomplete] at found
      cases found
    · rw [whole] at found
      cases found
  | cut found last turn =>
    rcases front with ⟨_,none⟩ | ⟨_,_,_,_,whole,_⟩
    · have finished := none (ended_wire c last)
      subst finished
      exact ⟨⟨[],by simpa [frameArm] using parted,by simp [frameArm,ended_wire c last],fun _ => rfl⟩,
        by simp [frameArm]⟩
    · rw [whole] at found
      cases found
  | waits future found kept quiet =>
    exact ⟨⟨rest,parted,by simpa [kept] using stream,by simp [running]⟩,by simp [running]⟩
  | notifiedFirst data later queued order =>
    subst order
    have untouched : c.reading.taken = [] := boundary running (by simp [queued])
    exact notifyArm_inStep payloads rest c running data later accepted parted (by simpa [untouched] using stream)
  | notifiedSecond data later queued order found more =>
    subst order
    -- The read was polled and waits, so the boundary leaves only the empty case.
    have empty : c.reading.taken ++ c.socket = [] := by
      rcases boundary running (by simp [queued]) with empty | other | last
      · exact empty
      · exact absurd found other
      · rw [more] at last
        cases last
    exact notifyArm_inStep payloads rest { c with socket := [] } running data later accepted parted
      (by simpa [empty] using stream)

theorem step_inStep (payloads : List Bytes) (bounded : ∀ payload ∈ payloads, payload.length ≤ maxFrame)
    (c : State) (event : Event) (inStep : InStep payloads c) (boundary : AtBoundary c event) :
    InStep payloads (step c event) := by
  cases event with
  | arrive count =>
    obtain ⟨⟨rest,parted,stream,closed⟩,readable⟩ := inStep
    refine ⟨⟨rest,parted,?_,closed⟩,readable⟩
    simpa [step,List.append_assoc,List.take_append_drop] using stream
  | hangUp => exact ⟨inStep.inFlight,inStep.readable⟩
  | push data =>
    simp only [step]
    split
    · exact ⟨inStep.inFlight,inStep.readable⟩
    · exact inStep
  | poll first accepted =>
    simp only [step]
    split
    · rename_i running
      exact select_inStep payloads bounded c first accepted running inStep boundary
    · exact inStep

theorem connect_inStep (payloads : List Bytes) : InStep payloads (connect payloads) :=
  ⟨⟨payloads,rfl,by simp [connect],by simp [connect]⟩,by simp [connect]⟩

def weight (c : State) : Nat :=
  (c.handled.map (fun payload => 4 + payload.length)).sum + c.reading.taken.length +
    c.socket.length + c.wire.length

private theorem notifyArm_weight (c : State) (data : Bytes) (later : List Bytes) (accepted : Bool) :
    weight (notifyArm c data later accepted) + c.reading.taken.length = weight c := by
  unfold notifyArm weight
  split <;> simp <;> omega

private theorem boundary_of_turn (c : State) (first : Branch) (accepted : Bool)
    (turn : first = .recv → c.notify = [])
    (settled : split maxFrame (c.reading.taken ++ c.socket) ≠ .incomplete ∨ ended c = true) :
    AtBoundary c (.poll first accepted) := by
  intro _ queued
  cases first with
  | recv => exact absurd (turn rfl) queued
  | readFrame => exact .inr settled

theorem select_weight (c : State) (first : Branch) (accepted : Bool) :
    weight (select c first accepted) ≤ weight c ∧
      (¬AtBoundary c (.poll first accepted) → weight (select c first accepted) < weight c) := by
  have outcome := select_selected c first accepted
  generalize select c first accepted = next at outcome
  cases outcome with
  | frame payload tail found turn =>
    have total := whole_length maxFrame _ payload tail found
    have boundary := boundary_of_turn c first accepted turn (.inl (by simp [found]))
    refine ⟨?_,fun outside => absurd boundary outside⟩
    simp only [List.length_append] at total
    simp only [weight,frameArm,taken_start,List.map_append,List.sum_append,List.map_cons,List.map_nil,
      List.sum_cons,List.sum_nil,List.length_nil]
    omega
  | oversize length tail found fewer turn =>
    have boundary := boundary_of_turn c first accepted turn (.inl (by simp [found]))
    refine ⟨?_,fun outside => absurd boundary outside⟩
    simp only [List.length_append] at fewer
    simp only [weight,frameArm,taken_start,List.length_nil]
    omega
  | cut found last turn =>
    have boundary := boundary_of_turn c first accepted turn (.inr last)
    refine ⟨?_,fun outside => absurd boundary outside⟩
    simp only [weight,frameArm,taken_start,List.length_nil]
    omega
  | waits future found kept quiet =>
    refine ⟨?_,fun outside => absurd (fun _ queued => absurd quiet queued) outside⟩
    simp only [weight,kept,List.length_append,List.length_nil]
    omega
  | notifiedFirst data later queued order =>
    subst order
    have total := notifyArm_weight c data later accepted
    refine ⟨by omega,fun outside => ?_⟩
    have held : c.reading.taken ≠ [] := fun none => outside (fun _ _ => none)
    have positive := List.length_pos_iff.mpr held
    omega
  | notifiedSecond data later queued order found more =>
    subst order
    have total := notifyArm_weight { c with socket := [] } data later accepted
    have lost : weight { c with socket := [] } + c.socket.length = weight c := by
      simp only [weight,List.length_nil]
      omega
    refine ⟨by omega,fun outside => ?_⟩
    have held : c.reading.taken ++ c.socket ≠ [] := fun none => outside (fun _ _ => .inl none)
    have positive := List.length_pos_iff.mpr held
    simp only [List.length_append] at positive total
    omega

theorem step_weight (c : State) (event : Event) :
    weight (step c event) ≤ weight c ∧ (¬AtBoundary c event → weight (step c event) < weight c) := by
  cases event with
  | arrive count =>
    refine ⟨?_,fun outside => absurd trivial outside⟩
    simp only [step,weight,List.length_append,List.length_take,List.length_drop]
    omega
  | hangUp => exact ⟨Nat.le_refl _,fun outside => absurd trivial outside⟩
  | push data =>
    refine ⟨?_,fun outside => absurd trivial outside⟩
    simp only [step]
    split
    · exact Nat.le_refl _
    · exact Nat.le_refl _
  | poll first accepted =>
    simp only [step]
    split
    · exact select_weight c first accepted
    · rename_i stopped
      exact ⟨Nat.le_refl _,fun outside => absurd (fun running => absurd running stopped) outside⟩

theorem weight_connect (payloads : List Bytes) :
    weight (connect payloads) = (payloads.map (fun payload => 4 + payload.length)).sum := by
  simp [weight,connect,List.length_flatMap]

/-- Nothing more of what the client wrote can reach a handler: every byte has
been read, or the loop has left on a read. -/
def Finished (c : State) : Prop :=
  (c.wire = [] ∧ c.socket = []) ∨ c.status = .clientDisconnected ∨ c.status = .readError

instance finishedDecidable (c : State) : Decidable (Finished c) :=
  inferInstanceAs (Decidable (_ ∨ _))

/-- Runs that are polled at frame boundaries hand over the client's payloads in
order, all of them once the run is finished; every other finished run does not. -/
theorem handled_payloads_iff (payloads : List Bytes)
    (bounded : ∀ payload ∈ payloads, payload.length ≤ maxFrame) (events : List Event) :
    (Along step AtBoundary (connect payloads) events →
      (run step (connect payloads) events).handled <+: payloads) ∧
    (Finished (run step (connect payloads) events) →
      ((run step (connect payloads) events).handled = payloads ↔
        Along step AtBoundary (connect payloads) events)) := by
  have kept : Along step AtBoundary (connect payloads) events →
      InStep payloads (run step (connect payloads) events) :=
    run_invariant step AtBoundary (InStep payloads) (step_inStep payloads bounded)
      (connect payloads) events (connect_inStep payloads)
  refine ⟨?_,fun finished => ⟨?_,?_⟩⟩
  · intro along
    obtain ⟨⟨rest,parted,_⟩,_⟩ := kept along
    exact ⟨rest,parted.symm⟩
  · intro handled
    by_contra missed
    have fewer := run_measure_lt step AtBoundary weight (fun c event => (step_weight c event).1)
      (fun c event => (step_weight c event).2) (connect payloads) events missed
    rw [weight_connect] at fewer
    unfold weight at fewer
    rw [handled] at fewer
    omega
  · intro along
    obtain ⟨⟨rest,parted,stream,closed⟩,readable⟩ := kept along
    have rests : ∀ payload ∈ rest, payload.length ≤ maxFrame := by
      intro payload member
      exact bounded payload (by rw [parted]; exact List.mem_append_right _ member)
    have none : rest = [] := by
      rcases finished with ⟨noWire,noSocket⟩ | disconnected | failed
      · rw [noWire,noSocket,List.append_nil] at stream
        rcases split_stream maxFrame (by decide) rest rests _ [] stream with ⟨_,ends⟩ | ⟨_,_,_,_,whole,_⟩
        · exact ends rfl
        · rw [taken_incomplete] at whole
          cases whole
      · exact closed disconnected
      · exact absurd failed readable
    rw [none,List.append_nil] at parted
    exact parted.symm

theorem handled_payloads_iff_quiet_header :
    Finished (run step (connect [[104,105]]) [.push [123,125],.poll .readFrame true,.arrive 3,
      .poll .recv true,.arrive 3,.poll .readFrame true]) ∧
    (run step (connect [[104,105]]) [.push [123,125],.poll .readFrame true,.arrive 3,
      .poll .recv true,.arrive 3,.poll .readFrame true]).handled = [[104,105]] :=
  ⟨by decide,((handled_payloads_iff [[104,105]] (by decide) [.push [123,125],.poll .readFrame true,.arrive 3,
    .poll .recv true,.arrive 3,.poll .readFrame true]).2 (by decide)).mpr (by decide)⟩

/-- Two header bytes are taken, then a notification arrives and wins: the rest
of the frame is read as a header announcing 0x00026869 bytes. -/
theorem notification_drops_header_bytes :
    Finished (run step (connect [[104,105]]) [.arrive 2,.poll .readFrame true,.push [123,125],
      .poll .recv true,.arrive 4,.poll .readFrame true]) ∧
    (run step (connect [[104,105]]) [.arrive 2,.poll .readFrame true,.push [123,125],
      .poll .recv true,.arrive 4,.poll .readFrame true]).handled ≠ [[104,105]] ∧
    (run step (connect [[104,105]]) [.arrive 2,.poll .readFrame true,.push [123,125],
      .poll .recv true,.arrive 4,.poll .readFrame true]).reading.taken = [0,2,104,105] := by
  decide

end ClawKernel.Server.Connection
