import Mathlib.Data.UInt
import ClawKernel.Lib.Runs
import ClawKernel.Server.Dispatch
import ClawKernel.Server.Outbound

/-! The auth gate of a connection, in front of whatever the server holds and whatever the
handlers behind the gate do.
-/
namespace ClawKernel.Server.AuthGate
open Lib.Json Lib.LengthPrefix Lib.Runs Server.Dispatch Server.Protocol
open Server.Outbound (toVec)

/-- The four hashes a server makes its token of. -/
structure AuthToken where
  first : UInt64
  second : UInt64
  third : UInt64
  fourth : UInt64
  deriving DecidableEq, Repr

def hex16 (n : UInt64) : String :=
  String.ofList ((List.range 16).reverse.map (fun i => hexDigit (n.toNat / 16 ^ i % 16)))

def AuthToken.text (token : AuthToken) : String :=
  hex16 token.first ++ hex16 token.second ++ hex16 token.third ++ hex16 token.fourth

theorem AuthToken.length_text (token : AuthToken) : token.text.length = 64 := by
  have sixteen (n : UInt64) : (hex16 n).length = 16 := by
    rw [hex16,String.length_ofList,List.length_map,List.length_reverse,List.length_range]
  rw [AuthToken.text,String.length_append,String.length_append,String.length_append]
  rw [sixteen,sixteen,sixteen,sixteen]

theorem AuthToken.text_ne_empty (token : AuthToken) : token.text ≠ "" := by
  intro empty
  have size := token.length_text
  rw [empty] at size
  exact absurd size (by decide)

/-- `queue` is what waits in the notify queue; `sent` are the frames written to the client. -/
structure Connection where
  authenticated : Bool
  queue : List Bytes
  sent : List Bytes
  closed : Bool
  deriving DecidableEq, Repr

def Connection.new : Connection := ⟨false,[],[],false⟩

/-- Writes the responses, as far as the socket accepts them. -/
def Connection.write (c : Connection) (accepted : Bool) (responses : List Response) : Connection :=
  { c with sent := c.sent ++ if accepted then responses.map (fun response => frame (toVec response.json)) else [] }

/-- A frame comes in, a notification is taken from the queue, or reading fails. -/
inductive Event where
  | frame (data : Bytes) (accepted : Bool)
  | recv (accepted : Bool)
  | hangUp
  deriving DecidableEq, Repr

/-- What decodes a frame, and what is behind the gate. -/
structure Gate (σ : Type*) where
  fromSlice : Bytes → Except String Request
  dispatch : σ → Connection → Request → Bool → σ × Connection

section Handling
variable {σ : Type*} (gate : Gate σ) (token : AuthToken)

def handleMessage (s : σ) (c : Connection) (data : Bytes) (accepted : Bool) : σ × Connection :=
  match gate.fromSlice data with
  | .error message =>
    (s,c.write accepted [.failure parseErrorCode ("Parse error: " ++ message) none none])
  | .ok request =>
    if request.method = "kernel.auth" then
      if tokenOf request.params = token.text then
        (s,{ c with authenticated := true }.write accepted (respond request.id (.ok (.object [("ok",.bool true)]))))
      else (s,c.write accepted (respond request.id (.error (.serialization "kernel.auth: invalid token"))))
    else if c.authenticated = false then
      (s,c.write accepted (respond request.id (.error (.serialization "not authenticated: send kernel.auth first"))))
    else gate.dispatch s c request accepted

/-- The loop of `handle_connection`; an error of `handle_message` does not end it. -/
def step (p : σ × Connection) (event : Event) : σ × Connection :=
  if p.2.closed then p
  else
    match event with
    | .frame data accepted => handleMessage gate token p.1 p.2 data accepted
    | .recv accepted =>
      match p.2.queue with
      | [] => p
      | data :: later =>
        (p.1,{ p.2 with
          queue := later
          sent := if accepted then p.2.sent ++ [frame data] else p.2.sent
          closed := !accepted })
    | .hangUp => (p.1,{ p.2 with closed := true })

/-- A `kernel.auth` request that carries exactly the token. -/
def Carries (data : Bytes) : Prop :=
  ∃ request members, gate.fromSlice data = .ok request ∧ request.method = "kernel.auth" ∧
    request.params = some (.object members) ∧ members.lookup "token" = some (.string token.text)

/-- What a connection outside the gate makes of an event, whatever the server holds. -/
def outside (c : Connection) (event : Event) : Connection :=
  if c.closed then c
  else
    match event with
    | .frame data accepted =>
      match gate.fromSlice data with
      | .error message => c.write accepted [.failure parseErrorCode ("Parse error: " ++ message) none none]
      | .ok request =>
        if request.method = "kernel.auth" then
          c.write accepted (respond request.id (.error (.serialization "kernel.auth: invalid token")))
        else c.write accepted (respond request.id (.error (.serialization "not authenticated: send kernel.auth first")))
    | .recv _ => c
    | .hangUp => { c with closed := true }

/-- Not authenticated, and nobody has been given the queue yet. -/
structure Outside (c : Connection) : Prop where
  unauthenticated : c.authenticated = false
  unqueued : c.queue = []

theorem carries_of_token (data : Bytes) (request : Request) (decoded : gate.fromSlice data = .ok request)
    (method : request.method = "kernel.auth") (same : tokenOf request.params = token.text) :
    Carries gate token data := by
  have present := token.text_ne_empty
  rw [← same] at present
  cases params : request.params with
  | none =>
    rw [params] at present
    exact absurd rfl present
  | some value =>
    rw [params] at present same
    unfold tokenOf at present same
    cases value with
    | object members =>
      cases found : members.lookup "token" with
      | none =>
        simp only [found] at present
        exact absurd rfl present
      | some carried =>
        cases carried with
        | string text =>
          simp only [found] at same
          exact ⟨request,members,decoded,method,params,by rw [found,same]⟩
        | _ =>
          simp only [found] at present
          exact absurd rfl present
    | _ => exact absurd rfl present

theorem write_outside (c : Connection) (accepted : Bool) (responses : List Response) (out : Outside c) :
    Outside (c.write accepted responses) :=
  ⟨out.unauthenticated,out.unqueued⟩

theorem outside_kept (c : Connection) (event : Event) (out : Outside c) : Outside (outside gate c event) := by
  unfold outside
  split
  · exact out
  · cases event with
    | frame data accepted =>
      dsimp only
      split
      · exact write_outside c accepted _ out
      · split
        · exact write_outside c accepted _ out
        · exact write_outside c accepted _ out
    | recv accepted => exact out
    | hangUp => exact ⟨out.unauthenticated,out.unqueued⟩

theorem step_outside (s : σ) (c : Connection) (event : Event) (out : Outside c)
    (quiet : ∀ data accepted, event = .frame data accepted → ¬Carries gate token data) :
    step gate token (s,c) event = (s,outside gate c event) := by
  unfold step outside
  split
  · rfl
  · cases event with
    | frame data accepted =>
      change handleMessage gate token s c data accepted = _
      unfold handleMessage
      dsimp only
      cases decoded : gate.fromSlice data with
      | error message => rfl
      | ok request =>
        dsimp only
        by_cases method : request.method = "kernel.auth"
        · rw [if_pos method,if_pos method,if_neg]
          intro same
          exact quiet data accepted rfl (carries_of_token gate token data request decoded method same)
        · rw [if_neg method,if_neg method,if_pos out.unauthenticated]
    | recv accepted =>
      change (match c.queue with
        | [] => (s,c)
        | data :: later => _) = _
      rw [out.unqueued]
    | hangUp => rfl

/-- Without the token, a run of a connection is one outside the gate. -/
theorem run_outside (s : σ) (c : Connection) (events : List Event) (out : Outside c)
    (quiet : ∀ data accepted, Event.frame data accepted ∈ events → ¬Carries gate token data) :
    run (step gate token) (s,c) events = (s,run (outside gate) c events) := by
  induction events generalizing c with
  | nil => rfl
  | cons event rest ih =>
    have now := step_outside gate token s c event out
      (fun data accepted same => quiet data accepted (same ▸ List.mem_cons_self))
    have later := ih (outside gate c event) (outside_kept gate c event out)
      (fun data accepted member => quiet data accepted (List.mem_cons_of_mem event member))
    change run (step gate token) (step gate token (s,c) event) rest = _
    rw [now,later]
    rfl

/-- Whatever is sent without the token, the server stays as it is and the client learns
nothing of it. -/
theorem nothing_before_auth (one other : σ) (events : List Event)
    (quiet : ∀ data accepted, Event.frame data accepted ∈ events → ¬Carries gate token data) :
    (run (step gate token) (one,Connection.new) events).2.sent =
        (run (step gate token) (other,Connection.new) events).2.sent ∧
      (run (step gate token) (one,Connection.new) events).1 = one ∧
      (run (step gate token) (other,Connection.new) events).1 = other := by
  rw [run_outside gate token one .new events ⟨rfl,rfl⟩ quiet,run_outside gate token other .new events ⟨rfl,rfl⟩ quiet]
  exact ⟨rfl,rfl,rfl⟩

end Handling

/-- The dispatch on the methods, behind the gate. -/
def kernelGate (services : Services) : Gate KernelState where
  fromSlice := services.fromSlice
  dispatch := fun s c request accepted =>
    match dispatch services s request with
    | .result value next => (next,c.write accepted (respond request.id value))
    | .left _ => (s,c)
    | .blocked => (s,{ c with closed := true })

/-- The gate is the one that stands in front of the dispatch. -/
theorem handleMessage_kernelGate (services : Services) (token : AuthToken) (s : KernelState) (c : Connection)
    (data : Bytes) (authToken : s.authToken = token.text) (authenticated : s.authenticated = c.authenticated) :
    (handleMessage (kernelGate services) token s c data true).2.sent =
        c.sent ++ (Dispatch.handleMessage services s data).written.map (fun response => frame (toVec response.json)) ∧
      { (handleMessage (kernelGate services) token s c data true).1 with authenticated := true } =
        { (Dispatch.handleMessage services s data).state with authenticated := true } := by
  have decodes : (kernelGate services).fromSlice data = services.fromSlice data := rfl
  unfold handleMessage Dispatch.handleMessage
  rw [decodes]
  cases services.fromSlice data with
  | error message => exact ⟨rfl,rfl⟩
  | ok request =>
    dsimp only
    by_cases method : request.method = "kernel.auth"
    · rw [if_pos method,if_pos method,← authToken]
      by_cases same : tokenOf request.params = s.authToken
      · rw [if_pos same,if_pos same]
        exact ⟨rfl,rfl⟩
      · rw [if_neg same,if_neg same]
        exact ⟨rfl,rfl⟩
    · rw [if_neg method,if_neg method,authenticated]
      by_cases out : c.authenticated = false
      · rw [if_pos out,if_pos out]
        exact ⟨rfl,rfl⟩
      · rw [if_neg out,if_neg out]
        simp only [kernelGate]
        cases dispatch services s request with
        | result value next => exact ⟨rfl,rfl⟩
        | left error => exact ⟨(List.append_nil _).symm,rfl⟩
        | blocked => exact ⟨(List.append_nil _).symm,rfl⟩

/-! A guess at the token, a request without one, and a frame that does not decode. -/

def guessFrames (data : Bytes) : Except String Request :=
  if data = [1] then .ok ⟨"2.0","kernel.auth",some (.object [("token",.string "guess")]),some (.number 1)⟩
  else if data = [2] then .ok ⟨"2.0","session.close",some (.object [("session_id",.string "s")]),some (.number 2)⟩
  else .error "expected value at line 1 column 1"

def guessServices : Services := { closeServices with fromSlice := guessFrames }

theorem nothing_before_guess :
    (run (step (kernelGate guessServices) ⟨0,0,0,0⟩) (⟨false,"",["s"],[],0⟩,Connection.new)
          [.frame [1] true,.frame [2] true,.frame [3] true]).2.sent =
        (run (step (kernelGate guessServices) ⟨0,0,0,0⟩) (⟨false,"",[],[],0⟩,Connection.new)
          [.frame [1] true,.frame [2] true,.frame [3] true]).2.sent ∧
      (run (step (kernelGate guessServices) ⟨0,0,0,0⟩) (⟨false,"",["s"],[],0⟩,Connection.new)
          [.frame [1] true,.frame [2] true,.frame [3] true]).1 = ⟨false,"",["s"],[],0⟩ ∧
      (run (step (kernelGate guessServices) ⟨0,0,0,0⟩) (⟨false,"",[],[],0⟩,Connection.new)
          [.frame [1] true,.frame [2] true,.frame [3] true]).1 = ⟨false,"",[],[],0⟩ := by
  apply nothing_before_auth (kernelGate guessServices) ⟨0,0,0,0⟩
  rintro data accepted member ⟨request,members,decoded,method,params,carried⟩
  rcases List.mem_cons.mp member with first | later
  · cases first
    cases decoded
    cases params
    have guessed : "guess" = AuthToken.text ⟨0,0,0,0⟩ := Value.string.inj (Option.some_inj.mp carried)
    exact absurd (congrArg String.length guessed) (by rw [AuthToken.length_text]; decide)
  · rcases List.mem_cons.mp later with second | last
    · cases second
      cases decoded
      exact absurd method (by decide)
    · cases List.mem_singleton.mp last
      cases decoded

end ClawKernel.Server.AuthGate
