import Mathlib.Data.List.Nodup
import ClawKernel.Lib.Json
import ClawKernel.Lib.Runs
import ClawKernel.Sdk.FrameBuffer

/-! The calls of the TypeScript client: promises under request ids, settled by the frames
a socket delivers or all at once by a failure. `JSON.parse` of a frame's text is a
parameter; it gives one value for a number, however the number is written.
-/
namespace ClawKernel.Sdk.KernelClient
open Lib.Json Lib.LengthPrefix Lib.Runs Sdk.FrameBuffer

/-- What JavaScript takes as false. -/
def falsy : Value → Bool
  | .null => true
  | .bool value => !value
  | .integer value => value = 0
  | .string text => text = ""
  | _ => false

inductive Failure where
  | parse
  | tooLarge (length : Nat)
  | socket
  | closed
  deriving DecidableEq, Repr

inductive Outcome where
  | resolved (value : Value)
  | rejected (code message data : Option Value)
  | failed (failure : Failure)

/-- How a response settles its promise. -/
def outcomeOf (msg : Value) : Outcome :=
  match msg.get "error" with
  | some err =>
    if falsy err then .resolved (result msg) else .rejected (err.get "code") (err.get "message") (err.get "data")
  | none => .resolved (result msg)
where
  /-- `response.result ?? {}`. -/
  result (msg : Value) : Value :=
    match msg.get "result" with
    | some .null => .object []
    | some value => value
    | none => .object []

/-- What `_dispatch` makes of a message: it throws for one that is no object and no array. -/
inductive Kind where
  | response (id : Option Nat)
  | notification (method params : Option Value)
  | thrown

/-- An id that is no number becomes -1, under which nothing is pending. -/
def kind (msg : Value) : Kind :=
  match msg with
  | .object members =>
    match members.lookup "id" with
    | some (.integer id) => .response id.toNat?
    | some .null => .notification (members.lookup "method") (members.lookup "params")
    | some _ => .response none
    | none => .notification (members.lookup "method") (members.lookup "params")
  | .array _ => .notification none none
  | _ => .thrown

/-- What befalls the promises: a call, a response, and a failure of all of them. -/
inductive Occurrence where
  | called (id : Nat)
  | answered (id : Nat) (outcome : Outcome)
  | failed (failure : Failure)

/-- `settled`, `refused`, `notified` and `trace` are kept for good. After `crashed`, an error
that nothing catches, the process is gone. -/
structure Client where
  socket : Socket
  reqId : Nat
  pending : List Nat
  closed : Bool
  crashed : Bool
  written : List (Nat × String × Option Value)
  settled : List (Nat × Outcome)
  refused : Nat
  notified : List (Option Value × Option Value)
  trace : List Occurrence

def connected : Client := ⟨opened,0,[],false,false,[],[],0,[],[]⟩

/-- `_rejectAll`. -/
def rejectAll (c : Client) (failure : Failure) : Client :=
  {c with
    pending := []
    settled := c.settled ++ c.pending.map (fun id => (id,.failed failure))
    trace := c.trace ++ [.failed failure]}

/-- A response without a pending call is dropped. -/
def answer (c : Client) (id : Nat) (outcome : Outcome) : Client :=
  if id ∈ c.pending then
    {c with
      pending := c.pending.erase id
      settled := c.settled ++ [(id,outcome)]
      trace := c.trace ++ [.answered id outcome]}
  else {c with trace := c.trace ++ [.answered id outcome]}

def dispatch (parse : Bytes → Option Value) (c : Client) (frame : Bytes) : Client :=
  if c.crashed then c
  else
    match parse frame with
    | none => rejectAll c .parse
    | some msg =>
      match kind msg with
      | .response (some id) => answer c id (outcomeOf msg)
      | .response none => c
      | .notification method params => {c with notified := c.notified ++ [(method,params)]}
      | .thrown => {c with crashed := true}

/-- The listener of `data`. -/
def onData (parse : Bytes → Option Value) (c : Client) (chunk : Bytes) : Client :=
  if c.socket.destroyed then c
  else
    match push c.socket.buf chunk with
    | (buf,.ok frames) =>
      frames.foldl (dispatch parse) {c with socket := ⟨buf,c.socket.dispatched ++ frames,false⟩}
    | (buf,.error length) => rejectAll {c with socket := ⟨buf,c.socket.dispatched,true⟩} (.tooLarge length)

/-- `_call`. -/
def call (c : Client) (method : String) (params : Option Value) : Client :=
  if c.closed then {c with refused := c.refused + 1}
  else
    {c with
      reqId := c.reqId + 1
      pending := c.pending ++ [c.reqId + 1]
      written := c.written ++ [(c.reqId + 1,method,params)]
      trace := c.trace ++ [.called (c.reqId + 1)]}

inductive Act where
  | call (method : String) (params : Option Value)
  | data (chunk : Bytes)
  | error
  | close

def step (parse : Bytes → Option Value) (c : Client) (act : Act) : Client :=
  if c.crashed then c
  else
    match act with
    | .call method params => call c method params
    | .data chunk => onData parse c chunk
    | .error => rejectAll c .socket
    | .close => rejectAll {c with closed := true} .closed

/-- A promise as its caller sees it. -/
inductive Promise where
  | uncalled
  | waiting
  | settled (outcome : Outcome)

def promise (c : Client) (id : Nat) : Promise :=
  match c.settled.lookup id with
  | some outcome => .settled outcome
  | none => if id ∈ c.pending then .waiting else .uncalled

/-- One call as if there were no others: the first answer to it or failure after it settles it. -/
def alone (id : Nat) (p : Promise) : Occurrence → Promise
  | .called other => match p with | .uncalled => if other = id then .waiting else p | _ => p
  | .answered other outcome => match p with | .waiting => if other = id then .settled outcome else p | _ => p
  | .failed failure => match p with | .waiting => .settled (.failed failure) | _ => p

def history (id : Nat) (trace : List Occurrence) : Promise := trace.foldl (alone id) .uncalled

/-- The ids up to the last one are those of promises, each pending or settled once. -/
structure Ids (c : Client) : Prop where
  pending : c.pending.Nodup
  once : (c.settled.map Prod.fst).Nodup
  apart : ∀ id ∈ c.pending, id ∉ c.settled.map Prod.fst
  drawn : ∀ id, id ∈ c.pending ∨ id ∈ c.settled.map Prod.fst → id ≤ c.reqId
  shut : c.closed = true → c.pending = []
  told : ∀ id, promise c id = history id c.trace

theorem history_append (id : Nat) (trace : List Occurrence) (o : Occurrence) :
    history id (trace ++ [o]) = alone id (history id trace) o := by
  rw [history,List.foldl_append,history]
  rfl

theorem lookup_failed (ids : List Nat) (failure : Failure) (id : Nat) :
    (ids.map (fun other => (other,Outcome.failed failure))).lookup id = if id ∈ ids then some (.failed failure) else none := by
  induction ids with
  | nil => rfl
  | cons first rest ih =>
    rw [List.map_cons,List.lookup_cons,ih]
    by_cases same : id = first
    · simp [same]
    · simp [same,beq_eq_false_iff_ne.mpr same]

theorem rejectAll_ids (c : Client) (failure : Failure) (ids : Ids c) : Ids (rejectAll c failure) := by
  have keys : (rejectAll c failure).settled.map Prod.fst = c.settled.map Prod.fst ++ c.pending := by
    simp [rejectAll,Function.comp_def]
  have settled : ∀ id, (rejectAll c failure).settled.lookup id =
      (c.settled.lookup id).or (if id ∈ c.pending then some (.failed failure) else none) := by
    intro id
    rw [← lookup_failed,← List.lookup_append]
    rfl
  refine ⟨List.nodup_nil,?_,fun id none => absurd none List.not_mem_nil,?_,fun _ => rfl,?_⟩
  · rw [keys,List.nodup_append]
    refine ⟨ids.once,ids.pending,?_⟩
    rintro id old other waits rfl
    exact ids.apart id waits old
  · rintro id (none | member)
    · exact absurd none List.not_mem_nil
    · rw [keys,List.mem_append] at member
      exact ids.drawn id member.symm
  · intro id
    rw [promise,settled,show (rejectAll c failure).trace = c.trace ++ [.failed failure] from rfl,history_append,
      ← ids.told,promise]
    cases found : c.settled.lookup id with
    | some outcome => rfl
    | none =>
      by_cases waits : id ∈ c.pending
      · simp [waits,alone]
      · simp [waits,alone,rejectAll]

theorem answer_ids (c : Client) (id : Nat) (outcome : Outcome) (ids : Ids c) : Ids (answer c id outcome) := by
  unfold answer
  split_ifs with waits
  · have keys : (c.settled ++ [(id,outcome)]).map Prod.fst = c.settled.map Prod.fst ++ [id] := by simp
    have settled : ∀ other, (c.settled ++ [(id,outcome)]).lookup other =
        (c.settled.lookup other).or (if other = id then some outcome else none) := by
      intro other
      rw [List.lookup_append,List.lookup_cons]
      by_cases same : other = id
      · simp [same]
      · simp [same,beq_eq_false_iff_ne.mpr same]
    refine ⟨ids.pending.erase id,?_,?_,?_,?_,?_⟩
    · rw [keys,List.nodup_append]
      refine ⟨ids.once,List.nodup_singleton _,?_⟩
      rintro other old new member rfl
      rw [List.mem_singleton.mp member] at old
      exact ids.apart id waits old
    · intro other member
      obtain ⟨different,old⟩ := (List.Nodup.mem_erase_iff ids.pending).mp member
      rw [keys,List.mem_append,List.mem_singleton]
      rintro (settled | same)
      · exact ids.apart other old settled
      · exact different same
    · rintro other (member | member)
      · exact ids.drawn other (.inl (List.mem_of_mem_erase member))
      · rw [keys,List.mem_append,List.mem_singleton] at member
        rcases member with old | rfl
        · exact ids.drawn other (.inr old)
        · exact ids.drawn other (.inl waits)
    · intro closed
      rw [ids.shut closed] at waits
      exact absurd waits List.not_mem_nil
    · intro other
      rw [promise,history_append,← ids.told,promise]
      simp only [settled]
      cases found : c.settled.lookup other with
      | some old => rfl
      | none =>
        by_cases same : other = id
        · simp [same,waits,alone]
        · simp only [same,if_false,Option.or_none,(List.Nodup.mem_erase_iff ids.pending),ne_eq,not_false_eq_true,true_and]
          by_cases member : other ∈ c.pending
          · simp [member,alone,Ne.symm same]
          · simp [member,alone]
  · refine ⟨ids.pending,ids.once,ids.apart,ids.drawn,ids.shut,?_⟩
    intro other
    rw [history_append,← ids.told]
    change promise c other = _
    rw [promise]
    cases found : c.settled.lookup other with
    | some old => rfl
    | none =>
      by_cases member : other ∈ c.pending
      · have different : id ≠ other := by rintro rfl; exact waits member
        simp [member,alone,different]
      · simp [member,alone]

theorem call_ids (c : Client) (method : String) (params : Option Value) (ids : Ids c) : Ids (call c method params) := by
  unfold call
  split_ifs with closed
  · exact ⟨ids.pending,ids.once,ids.apart,ids.drawn,ids.shut,ids.told⟩
  · have fresh : c.reqId + 1 ∉ c.pending := fun member => by
      have := ids.drawn _ (.inl member)
      omega
    have unsettled : c.reqId + 1 ∉ c.settled.map Prod.fst := fun member => by
      have := ids.drawn _ (.inr member)
      omega
    refine ⟨?_,ids.once,?_,?_,fun shut => absurd shut closed,?_⟩
    · rw [List.nodup_append]
      refine ⟨ids.pending,List.nodup_singleton _,?_⟩
      rintro id member other new rfl
      rw [List.mem_singleton.mp new] at member
      exact fresh member
    · intro id member
      rcases List.mem_append.mp member with old | new
      · exact ids.apart id old
      · rw [List.mem_singleton.mp new]
        exact unsettled
    · rintro id (member | member)
      · rcases List.mem_append.mp member with old | new
        · exact Nat.le_succ_of_le (ids.drawn id (.inl old))
        · exact (List.mem_singleton.mp new).le
      · exact Nat.le_succ_of_le (ids.drawn id (.inr member))
    · intro id
      rw [history_append,← ids.told,promise,promise]
      cases found : c.settled.lookup id with
      | some old => rfl
      | none =>
        by_cases member : id ∈ c.pending
        · simp [member,alone]
        · by_cases same : id = c.reqId + 1
          · simp [same,fresh,alone]
          · simp [member,same,alone,Ne.symm same]

theorem dispatch_ids (parse : Bytes → Option Value) (c : Client) (frame : Bytes) (ids : Ids c) :
    Ids (dispatch parse c frame) := by
  unfold dispatch
  split_ifs with crashed
  · exact ids
  · cases parse frame with
    | none => exact rejectAll_ids c .parse ids
    | some msg =>
      simp only
      cases kind msg with
      | response id =>
        cases id with
        | none => exact ids
        | some id => exact answer_ids c id _ ids
      | notification method params => exact ⟨ids.pending,ids.once,ids.apart,ids.drawn,ids.shut,ids.told⟩
      | thrown => exact ⟨ids.pending,ids.once,ids.apart,ids.drawn,ids.shut,ids.told⟩

theorem onData_ids (parse : Bytes → Option Value) (c : Client) (chunk : Bytes) (ids : Ids c) :
    Ids (onData parse c chunk) := by
  unfold onData
  split_ifs with destroyed
  · exact ids
  · rcases push c.socket.buf chunk with ⟨buf,length | frames⟩
    · exact rejectAll_ids _ _ ⟨ids.pending,ids.once,ids.apart,ids.drawn,ids.shut,ids.told⟩
    · simp only
      generalize start : ({c with socket := ⟨buf,c.socket.dispatched ++ frames,false⟩} : Client) = d
      have ready : Ids d := by rw [← start]; exact ⟨ids.pending,ids.once,ids.apart,ids.drawn,ids.shut,ids.told⟩
      clear start
      induction frames generalizing d with
      | nil => exact ready
      | cons frame rest ih => exact ih _ (dispatch_ids parse d frame ready)

theorem step_ids (parse : Bytes → Option Value) (c : Client) (act : Act) (ids : Ids c) : Ids (step parse c act) := by
  unfold step
  split_ifs with crashed
  · exact ids
  · cases act with
    | call method params => exact call_ids c method params ids
    | data chunk => exact onData_ids parse c chunk ids
    | error => exact rejectAll_ids c .socket ids
    | close =>
      have all := rejectAll_ids c .closed ids
      exact ⟨all.pending,all.once,all.apart,all.drawn,fun _ => rfl,all.told⟩

theorem connected_ids : Ids connected :=
  ⟨List.nodup_nil,List.nodup_nil,fun _ none => absurd none List.not_mem_nil,
    fun _ none => absurd none (by simp [connected]),fun _ => rfl,fun _ => rfl⟩

/-- Every call of every run stands as it would with no other call around it: its promise is
settled once, by the first response to its id or by the first failure after it, and after
the socket's end none waits. -/
theorem promises_settle_alone (parse : Bytes → Option Value) (acts : List Act) :
    ((run (step parse) connected acts).settled.map Prod.fst).Nodup ∧
      (∀ id, promise (run (step parse) connected acts) id = history id (run (step parse) connected acts).trace) ∧
      ((run (step parse) connected acts).closed = true → (run (step parse) connected acts).pending = []) := by
  have ids := run_always (step parse) Ids (step_ids parse) connected acts connected_ids
  exact ⟨ids.once,ids.told,ids.shut⟩

end ClawKernel.Sdk.KernelClient
