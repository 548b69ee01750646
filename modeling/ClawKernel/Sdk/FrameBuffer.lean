import ClawKernel.Lib.Cutting
import ClawKernel.Lib.LengthPrefix

/-! The frame layer of the TypeScript SDK: `FrameBuffer.push` on the chunks a socket
delivers, and `encodeFrame`. A push that throws hands on none of the frames it took
from the buffer before, and the client destroys the socket, so no chunk follows it. What
`_dispatch` makes of a frame, and that it may throw, is left to the calls above this layer.
-/
namespace ClawKernel.Sdk.FrameBuffer
open Lib Lib.LengthPrefix Lib.Cutting

def maxFrameSize : Nat := 16 * 1024 * 1024

/-- The loop of `push`; an error carries the length it names. -/
def extractUpTo : Nat → Bytes → List Bytes → Bytes × Except Nat (List Bytes)
  | 0, buf, frames => (buf,.ok frames)
  | fuel + 1, buf, frames =>
    if buf.length < 4 then (buf,.ok frames)
    else
      let payloadLen := ofBe32 (buf.take 4)
      if maxFrameSize < payloadLen then (buf,.error payloadLen)
      else if buf.length < 4 + payloadLen then (buf,.ok frames)
      else extractUpTo fuel (buf.drop (4 + payloadLen)) (frames ++ [(buf.drop 4).take payloadLen])

def push (buf chunk : Bytes) : Bytes × Except Nat (List Bytes) :=
  extractUpTo ((buf ++ chunk).length + 1) (buf ++ chunk) []

def encodeFrame (body : Bytes) : Bytes := be32 body.length ++ body

/-- What the client has of a socket: the buffer, the frames dispatched so far, and whether
a push has thrown. -/
structure Socket where
  buf : Bytes
  dispatched : List Bytes
  destroyed : Bool
  deriving DecidableEq, Repr

def opened : Socket := ⟨[],[],false⟩

/-- The listener of `data`. -/
def onData (s : Socket) (chunk : Bytes) : Socket :=
  if s.destroyed then s
  else
    match push s.buf chunk with
    | (buf,.ok frames) => ⟨buf,s.dispatched ++ frames,false⟩
    | (buf,.error _) => ⟨buf,s.dispatched,true⟩

def received (chunks : List Bytes) : Socket := chunks.foldl onData opened

def front (s : Bytes) : Front UInt8 Bytes Nat :=
  match split maxFrameSize s with
  | .incomplete => .short
  | .oversize length => .bad length
  | .whole payload rest => .item payload rest

theorem split_more (limit : Nat) (s more : Bytes) (stands : split limit s ≠ .incomplete) :
    split limit (s ++ more) =
      match split limit s with
      | .incomplete => .incomplete
      | .oversize length => .oversize length
      | .whole payload rest => .whole payload (rest ++ more) := by
  have four : 4 ≤ s.length := by
    by_contra short
    exact stands (by rw [split,if_pos (by omega)])
  have taken : (s ++ more).take 4 = s.take 4 := List.take_append_of_le_length four
  unfold split at stands ⊢
  rw [taken]
  rw [if_neg (by omega)] at stands
  rw [if_neg (by simp; omega),if_neg (by omega : ¬s.length < 4)]
  by_cases above : limit < ofBe32 (s.take 4)
  · rw [if_pos above,if_pos above]
  · rw [if_neg above] at stands ⊢
    rw [if_neg above]
    have whole : 4 + ofBe32 (s.take 4) ≤ s.length := by
      by_contra short
      exact stands (by rw [if_pos (by omega)])
    rw [if_neg (by simp; omega),if_neg (by omega)]
    simp only [List.drop_append_of_le_length four,List.drop_append_of_le_length whole]
    rw [List.take_append_of_le_length (by simp; omega)]

/-- The frames of a stream, cut from its front. -/
def frames : Cutter UInt8 Bytes Nat where
  front := front
  shorter := by
    intro s token rest found
    unfold front at found
    split at found <;> cases found
    next whole =>
      have := whole_length maxFrameSize s token rest whole
      omega
  item_append := by
    intro s token rest more found
    unfold front at found ⊢
    split at found <;> cases found
    next whole => rw [split_more _ _ _ (by simp [whole]),whole]
  bad_append := by
    intro s e more found
    unfold front at found ⊢
    split at found <;> cases found
    next oversize => rw [split_more _ _ _ (by simp [oversize]),oversize]

theorem extractUpTo_split (fuel : Nat) (buf : Bytes) (taken : List Bytes) :
    extractUpTo (fuel + 1) buf taken =
      match split maxFrameSize buf with
      | .incomplete => (buf,.ok taken)
      | .oversize length => (buf,.error length)
      | .whole payload rest => extractUpTo fuel rest (taken ++ [payload]) := by
  rw [extractUpTo,split]
  by_cases header : buf.length < 4
  · rw [if_pos header,if_pos header]
  · rw [if_neg header,if_neg header]
    by_cases above : maxFrameSize < ofBe32 (buf.take 4)
    · simp only [if_pos above]
    · by_cases short : buf.length < 4 + ofBe32 (buf.take 4)
      · simp only [if_neg above,if_pos short]
      · simp only [if_neg above,if_neg short]

/-- What a push answers with, from what was cut. -/
def answer (cuts : Cuts UInt8 Bytes Nat) (taken : List Bytes) : Bytes × Except Nat (List Bytes) :=
  (cuts.left,match cuts.error with | none => .ok (taken ++ cuts.items) | some length => .error length)

theorem extractUpTo_eq (fuel : Nat) (buf : Bytes) (taken : List Bytes) :
    extractUpTo fuel buf taken = answer (cutUpTo frames fuel buf) taken := by
  induction fuel generalizing buf taken with
  | zero => simp [extractUpTo,cutUpTo,answer]
  | succ fuel ih =>
    rw [extractUpTo_split,cutUpTo]
    cases found : split maxFrameSize buf with
    | incomplete =>
      have short : frames.front buf = .short := by simp [frames,front,found]
      simp [short,answer]
    | oversize length =>
      have bad : frames.front buf = .bad length := by simp [frames,front,found]
      simp [bad,answer]
    | whole payload rest =>
      have item : frames.front buf = .item payload rest := by simp [frames,front,found]
      simp only [item,ih,answer,List.append_assoc,List.singleton_append]

theorem push_eq (buf chunk : Bytes) : push buf chunk = answer (cut frames (buf ++ chunk)) [] :=
  extractUpTo_eq _ _ _

/-- The client's socket is the reader of the library. -/
def reader (s : Socket) : Reader UInt8 Bytes := ⟨s.buf,s.dispatched,s.destroyed⟩

theorem reader_onData (s : Socket) (chunk : Bytes) : reader (onData s chunk) = feed frames (reader s) chunk := by
  rw [onData,feed]
  by_cases gone : s.destroyed
  · rw [if_pos gone,if_pos (show (reader s).stopped = true from gone)]
  · rw [if_neg gone,if_neg (show ¬(reader s).stopped = true from gone),push_eq,answer]
    have kept : (reader s).kept = s.buf := rfl
    rw [kept]
    cases (cut frames (s.buf ++ chunk)).error with
    | none => rfl
    | some e => rfl

theorem reader_received (s : Socket) (chunks : List Bytes) :
    reader (chunks.foldl onData s) = feedAll frames (reader s) chunks := by
  induction chunks generalizing s with
  | nil => rfl
  | cons chunk later ih => rw [List.foldl_cons,ih,reader_onData]; rfl

/-- The frames of all bytes the server sent, read at once. -/
def sent (bytes : Bytes) : List Bytes := (cut frames bytes).items

/-- However the socket cuts the bytes, the client dispatches the frames that reading them
at once gives, exactly when no chunk holds both the end of a frame and a length above the limit. -/
theorem dispatched_iff_apart (chunks : List Bytes) :
    (received chunks).dispatched = sent chunks.flatten ↔ Apart frames [] chunks := by
  have same := reader_received opened chunks
  have handed := feedAll_handed frames [] [] chunks rfl
  rw [List.nil_append,List.nil_append] at handed
  rw [received,sent,← handed]
  change (reader (chunks.foldl onData opened)).handed = _ ↔ _
  rw [same]
  rfl

/-- The front of a stream that the server writes, frame by frame, holds no length above the limit. -/
theorem cut_stream (payloads : List Bytes) (fits : ∀ payload ∈ payloads, payload.length ≤ maxFrameSize)
    (bytes coming : Bytes) (stream : bytes ++ coming = payloads.flatMap frame) :
    (cut frames bytes).error = none ∧
      ∃ later, payloads = (cut frames bytes).items ++ later ∧ (cut frames bytes).left ++ coming = later.flatMap frame := by
  induction payloads generalizing bytes with
  | nil =>
    rcases split_stream maxFrameSize (by decide) [] fits bytes coming stream with ⟨short,-⟩ | ⟨payload,later,rest,none,-⟩
    · rw [cut_short frames bytes (by simp [frames,front,short])]
      exact ⟨rfl,[],rfl,stream⟩
    · exact absurd none (List.cons_ne_nil payload later).symm
  | cons payload later ih =>
    rcases split_stream maxFrameSize (by decide) _ fits bytes coming stream with
      ⟨short,-⟩ | ⟨first,others,rest,same,found,tail⟩
    · rw [cut_short frames bytes (by simp [frames,front,short])]
      exact ⟨rfl,payload :: later,rfl,stream⟩
    · obtain ⟨rfl,rfl⟩ := List.cons.inj same
      obtain ⟨unstopped,left,joined,follows⟩ := ih (fun p member => fits p (List.mem_cons_of_mem payload member)) rest tail
      rw [cut_item frames bytes rest payload (by simp [frames,front,found])]
      exact ⟨unstopped,left,congrArg (payload :: ·) joined,follows⟩

/-- Of what the server has written the client dispatches every frame that has come whole, in order. -/
theorem received_stream (payloads : List Bytes) (fits : ∀ payload ∈ payloads, payload.length ≤ maxFrameSize)
    (chunks : List Bytes) (coming : Bytes) (stream : chunks.flatten ++ coming = payloads.flatMap encodeFrame) :
    (received chunks).destroyed = false ∧ ∃ later, payloads = (received chunks).dispatched ++ later ∧
      (received chunks).buf ++ coming = later.flatMap encodeFrame := by
  obtain ⟨unstopped,later,joined,follows⟩ := cut_stream payloads fits chunks.flatten coming stream
  have same := reader_received opened chunks
  rw [show reader opened = ⟨[],[],false⟩ from rfl,feedAll_unstopped frames [] [] chunks rfl unstopped,← received] at same
  have destroyed : (received chunks).destroyed = false := congrArg Reader.stopped same
  have dispatched : (received chunks).dispatched = _ := congrArg Reader.handed same
  have buf : (received chunks).buf = _ := congrArg Reader.kept same
  refine ⟨destroyed,later,?_,?_⟩
  · rw [dispatched]
    exact joined
  · rw [buf]
    exact follows

end ClawKernel.Sdk.FrameBuffer
