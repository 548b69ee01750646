import ClawKernel.Lib.LengthPrefix

/-! Length-prefixed frames of the IPC transport, as `write_frame` writes them into a
pipe and the transport's reader task takes them out again. Both sides check the
length against one limit, which nothing outside the tests moves from its default.
-/
namespace ClawKernel.Pal.Framing
open Lib Lib.LengthPrefix

inductive IpcError where
  | connectionRefused
  | timeout
  | brokenPipe
  | invalidMessage
  | permissionDenied
  deriving DecidableEq, Repr

def defaultMaxFrameSize : Nat := 0x1000000

/-- A pipe with the bytes it took; `room` is what it takes before it breaks, if it does. -/
structure Writer where
  written : Bytes
  room : Option Nat
  deriving DecidableEq, Repr

def writeAll (w : Writer) (bytes : Bytes) : Writer × Except IpcError Unit :=
  match w.room with
  | none => ({ w with written := w.written ++ bytes },.ok ())
  | some room =>
    if bytes.length ≤ room then (⟨w.written ++ bytes,some (room - bytes.length)⟩,.ok ())
    else (⟨w.written ++ bytes.take room,some 0⟩,.error .brokenPipe)

def writeFrame (maxFrameSize : Nat) (w : Writer) (data : Bytes) : Writer × Except IpcError Unit :=
  if maxFrameSize < data.length then (w,.error .invalidMessage)
  else
    match writeAll w (be32 data.length) with
    | (broken,.error e) => (broken,.error e)
    | (headed,.ok _) => writeAll headed data

/-- `send` of the transport. -/
def send (maxFrameSize : Nat) (w : Writer) (msg : Bytes) : Writer × Except IpcError Unit :=
  if msg.isEmpty then (w,.error .invalidMessage) else writeFrame maxFrameSize w msg

/-- At the end of the stream `read_exact` has consumed what there was. -/
def readExact (count : Nat) (bytes : Bytes) : Bytes × Except IpcError Bytes :=
  if count ≤ bytes.length then (bytes.drop count,.ok (bytes.take count)) else ([],.error .brokenPipe)

def readFrame (maxFrameSize : Nat) (bytes : Bytes) : Bytes × Except IpcError Bytes :=
  match readExact 4 bytes with
  | (rest,.error e) => (rest,.error e)
  | (rest,.ok header) =>
    if maxFrameSize < ofBe32 header then (rest,.error .invalidMessage)
    else readExact (ofBe32 header) rest

/-- The reader task: frame after frame, up to and with the first error. -/
def readerTaskUpTo (maxFrameSize : Nat) : Nat → Bytes → List (Except IpcError Bytes)
  | 0, _ => []
  | fuel + 1, bytes =>
    match readFrame maxFrameSize bytes with
    | (rest,.ok frame) => .ok frame :: readerTaskUpTo maxFrameSize fuel rest
    | (_,.error e) => [.error e]

def readerTask (maxFrameSize : Nat) (bytes : Bytes) : List (Except IpcError Bytes) :=
  readerTaskUpTo maxFrameSize (bytes.length + 1) bytes

def writeFrames (maxFrameSize : Nat) (w : Writer) (payloads : List Bytes) : Writer :=
  payloads.foldl (fun w data => (writeFrame maxFrameSize w data).1) w

def accepted (maxFrameSize : Nat) (payloads : List Bytes) : List Bytes :=
  payloads.filter (fun data => decide (data.length ≤ maxFrameSize))

theorem writeFrame_rejected (maxFrameSize : Nat) (w : Writer) (data : Bytes) (above : maxFrameSize < data.length) :
    writeFrame maxFrameSize w data = (w,.error .invalidMessage) :=
  if_pos above

theorem writeFrame_accepted (maxFrameSize : Nat) (written data : Bytes) (fits : data.length ≤ maxFrameSize) :
    writeFrame maxFrameSize ⟨written,none⟩ data = (⟨written ++ frame data,none⟩,.ok ()) := by
  unfold writeFrame
  rw [if_neg (Nat.not_lt.mpr fits)]
  simp only [writeAll,frame,List.append_assoc]

/-- What a pipe that breaks after `room` bytes has taken of one frame. -/
theorem writeFrame_broken (maxFrameSize room : Nat) (written data : Bytes) (fits : data.length ≤ maxFrameSize) :
    (writeFrame maxFrameSize ⟨written,some room⟩ data).1 =
      ⟨written ++ (frame data).take room,some (room - (frame data).length)⟩ := by
  unfold writeFrame
  rw [if_neg (Nat.not_lt.mpr fits)]
  by_cases header : 4 ≤ room
  · have wrote : writeAll ⟨written,some room⟩ (be32 data.length) =
        (⟨written ++ be32 data.length,some (room - 4)⟩,.ok ()) := if_pos header
    rw [wrote]
    have taken : (frame data).take room = be32 data.length ++ data.take (room - 4) := by
      rw [frame,List.take_append,be32_length,List.take_of_length_le header]
    have left : room - (frame data).length = room - 4 - data.length := by
      rw [frame_length]
      omega
    rw [taken,left]
    simp only [writeAll]
    split_ifs with all
    · rw [List.take_of_length_le all,List.append_assoc]
    · rw [List.append_assoc,Nat.sub_eq_zero_of_le (Nat.le_of_not_le all)]
  · have broke : writeAll ⟨written,some room⟩ (be32 data.length) =
        (⟨written ++ (be32 data.length).take room,some 0⟩,.error .brokenPipe) := if_neg header
    have taken : (frame data).take room = (be32 data.length).take room := by
      rw [frame,List.take_append_of_le_length (by rw [be32_length]; omega)]
    have left : room - (frame data).length = 0 := by
      rw [frame_length]
      omega
    rw [broke,taken,left]

theorem accepted_cons (maxFrameSize : Nat) (data : Bytes) (later : List Bytes) :
    accepted maxFrameSize (data :: later) =
      if data.length ≤ maxFrameSize then data :: accepted maxFrameSize later else accepted maxFrameSize later := by
  unfold accepted
  rw [List.filter_cons]
  simp only [decide_eq_true_eq]

theorem writeFrames_stream (maxFrameSize : Nat) (written : Bytes) (payloads : List Bytes) :
    writeFrames maxFrameSize ⟨written,none⟩ payloads =
      ⟨written ++ (accepted maxFrameSize payloads).flatMap frame,none⟩ := by
  induction payloads generalizing written with
  | nil => rw [writeFrames,List.foldl_nil,accepted,List.filter_nil,List.flatMap_nil,List.append_nil]
  | cons data later ih =>
    change writeFrames maxFrameSize (writeFrame maxFrameSize ⟨written,none⟩ data).1 later = _
    rw [accepted_cons]
    split_ifs with fits
    · rw [writeFrame_accepted maxFrameSize written data fits,ih,List.flatMap_cons,List.append_assoc]
    · rw [writeFrame_rejected maxFrameSize _ data (Nat.lt_of_not_le fits),ih]

theorem writeFrames_broken (maxFrameSize room : Nat) (written : Bytes) (payloads : List Bytes) :
    (writeFrames maxFrameSize ⟨written,some room⟩ payloads).written =
      written ++ ((accepted maxFrameSize payloads).flatMap frame).take room := by
  induction payloads generalizing written room with
  | nil => rw [writeFrames,List.foldl_nil,accepted,List.filter_nil,List.flatMap_nil,List.take_nil,List.append_nil]
  | cons data later ih =>
    change (writeFrames maxFrameSize (writeFrame maxFrameSize ⟨written,some room⟩ data).1 later).written = _
    rw [accepted_cons]
    split_ifs with fits
    · rw [writeFrame_broken maxFrameSize room written data fits,ih,List.flatMap_cons,List.take_append,
        List.append_assoc]
    · rw [writeFrame_rejected maxFrameSize _ data (Nat.lt_of_not_le fits),ih]

theorem readFrame_split (maxFrameSize : Nat) (bytes : Bytes) :
    readFrame maxFrameSize bytes =
      match split maxFrameSize bytes with
      | .incomplete => ([],.error .brokenPipe)
      | .oversize _ => (bytes.drop 4,.error .invalidMessage)
      | .whole payload rest => (rest,.ok payload) := by
  unfold readFrame split readExact
  by_cases short : bytes.length < 4
  · rw [if_neg (Nat.not_le.mpr short),if_pos short]
  · rw [if_pos (Nat.le_of_not_lt short),if_neg short]
    by_cases oversize : maxFrameSize < ofBe32 (bytes.take 4)
    · simp only [if_pos oversize]
    · simp only [if_neg oversize,List.length_drop]
      by_cases cutShort : bytes.length < 4 + ofBe32 (bytes.take 4)
      · rw [if_pos cutShort,if_neg (by omega)]
      · rw [if_neg cutShort,if_pos (by omega),List.drop_drop]

/-- What the reader task delivers of a stream of frames that has been cut: the payloads
of the frames that stand whole before the cut, then the broken pipe. -/
theorem readerTaskUpTo_stream (maxFrameSize fuel : Nat) (word : maxFrameSize < 2 ^ 32) (payloads : List Bytes)
    (fits : ∀ payload ∈ payloads, payload.length ≤ maxFrameSize) (bytes coming : Bytes)
    (stream : bytes ++ coming = payloads.flatMap frame) (enough : bytes.length < fuel) :
    ∃ before, before <+: payloads ∧ (before = payloads ↔ coming = []) ∧
      readerTaskUpTo maxFrameSize fuel bytes = before.map .ok ++ [.error .brokenPipe] := by
  induction fuel generalizing payloads bytes with
  | zero => exact absurd enough (Nat.not_lt_zero _)
  | succ fuel ih =>
    rw [readerTaskUpTo,readFrame_split]
    rcases split_stream maxFrameSize word payloads fits bytes coming stream with
      ⟨short,ended⟩ | ⟨payload,later,rest,rfl,found,tail⟩
    · rw [short]
      refine ⟨[],List.nil_prefix,⟨?_,fun empty => (ended empty).symm⟩,rfl⟩
      intro none
      rw [← none,List.flatMap_nil] at stream
      exact (List.append_eq_nil_iff.mp stream).2
    · rw [found]
      have shorter := whole_length maxFrameSize bytes payload rest found
      obtain ⟨before,front,whole,delivered⟩ :=
        ih later (fun p member => fits p (List.mem_cons_of_mem payload member)) rest tail (by omega)
      refine ⟨payload :: before,List.cons_prefix_cons.mpr ⟨rfl,front⟩,?_,?_⟩
      · rw [← whole]
        exact ⟨fun same => (List.cons.inj same).2,fun same => congrArg _ same⟩
      · simp only [delivered,List.map_cons,List.cons_append]

theorem accepted_fits (maxFrameSize : Nat) (payloads : List Bytes) :
    ∀ payload ∈ accepted maxFrameSize payloads, payload.length ≤ maxFrameSize := by
  intro payload member
  exact of_decide_eq_true (List.mem_filter.mp member).2

theorem readerTask_stream (maxFrameSize : Nat) (word : maxFrameSize < 2 ^ 32) (payloads : List Bytes)
    (bytes coming : Bytes) (stream : bytes ++ coming = (accepted maxFrameSize payloads).flatMap frame) :
    ∃ before, before <+: accepted maxFrameSize payloads ∧
      (before = accepted maxFrameSize payloads ↔ coming = []) ∧
      readerTask maxFrameSize bytes = before.map .ok ++ [.error .brokenPipe] :=
  readerTaskUpTo_stream maxFrameSize _ word _ (accepted_fits maxFrameSize payloads) bytes coming stream
    (Nat.lt_succ_self _)

theorem written_frames (maxFrameSize : Nat) (payloads : List Bytes) :
    (writeFrames maxFrameSize ⟨[],none⟩ payloads).written = (accepted maxFrameSize payloads).flatMap frame := by
  rw [writeFrames_stream,List.nil_append]

theorem frames_read_back (maxFrameSize : Nat) (word : maxFrameSize < 2 ^ 32) (payloads : List Bytes) :
    readerTask maxFrameSize (writeFrames maxFrameSize ⟨[],none⟩ payloads).written =
      (accepted maxFrameSize payloads).map .ok ++ [.error .brokenPipe] := by
  rw [written_frames]
  obtain ⟨before,-,whole,delivered⟩ :=
    readerTask_stream maxFrameSize word payloads _ [] (List.append_nil _)
  rw [delivered,whole.mpr rfl]

theorem cut_frames_read_back (maxFrameSize : Nat) (word : maxFrameSize < 2 ^ 32) (payloads : List Bytes)
    (cut coming : Bytes) (missing : coming ≠ [])
    (stream : cut ++ coming = (writeFrames maxFrameSize ⟨[],none⟩ payloads).written) :
    ∃ before, before <+: accepted maxFrameSize payloads ∧ before ≠ accepted maxFrameSize payloads ∧
      readerTask maxFrameSize cut = before.map .ok ++ [.error .brokenPipe] := by
  rw [written_frames] at stream
  obtain ⟨before,front,whole,delivered⟩ := readerTask_stream maxFrameSize word payloads cut coming stream
  exact ⟨before,front,fun same => missing (whole.mp same),delivered⟩

/-- A pipe that breaks under the writer shows its reader nothing but whole frames. -/
theorem broken_writer_read_back (maxFrameSize room : Nat) (word : maxFrameSize < 2 ^ 32) (payloads : List Bytes) :
    ∃ before, before <+: accepted maxFrameSize payloads ∧
      readerTask maxFrameSize (writeFrames maxFrameSize ⟨[],some room⟩ payloads).written =
        before.map .ok ++ [.error .brokenPipe] := by
  rw [writeFrames_broken,List.nil_append]
  obtain ⟨before,front,-,delivered⟩ :=
    readerTask_stream maxFrameSize word payloads _ _ (List.take_append_drop room _)
  exact ⟨before,front,delivered⟩

theorem send_writes (maxFrameSize : Nat) (w : Writer) (messages : List Bytes) :
    messages.foldl (fun w msg => (send maxFrameSize w msg).1) w =
      writeFrames maxFrameSize w (messages.filter (fun msg => !msg.isEmpty)) := by
  induction messages generalizing w with
  | nil => rfl
  | cons msg later ih =>
    rw [List.foldl_cons,ih,List.filter_cons]
    cases empty : msg.isEmpty with
    | true => simp only [send,empty,if_true,Bool.not_true,Bool.false_eq_true,if_false]
    | false =>
      simp only [send,empty,Bool.false_eq_true,if_false,Bool.not_false,if_true]
      rfl

/-- `send` also refuses the empty message: what arrives is what it took. -/
theorem sends_received (messages : List Bytes) :
    readerTask defaultMaxFrameSize
        (messages.foldl (fun w msg => (send defaultMaxFrameSize w msg).1) ⟨[],none⟩).written =
      (accepted defaultMaxFrameSize (messages.filter (fun msg => !msg.isEmpty))).map .ok ++
        [.error .brokenPipe] := by
  rw [send_writes]
  exact frames_read_back defaultMaxFrameSize (by decide) _

theorem frame_round_trip (payloads : List Bytes) :
    (∀ w data, defaultMaxFrameSize < data.length →
      writeFrame defaultMaxFrameSize w data = (w,.error .invalidMessage)) ∧
    readerTask defaultMaxFrameSize (writeFrames defaultMaxFrameSize ⟨[],none⟩ payloads).written =
      (accepted defaultMaxFrameSize payloads).map .ok ++ [.error .brokenPipe] ∧
    ∀ cut coming, coming ≠ [] → cut ++ coming = (writeFrames defaultMaxFrameSize ⟨[],none⟩ payloads).written →
      ∃ before, before <+: accepted defaultMaxFrameSize payloads ∧
        before ≠ accepted defaultMaxFrameSize payloads ∧
        readerTask defaultMaxFrameSize cut = before.map .ok ++ [.error .brokenPipe] := by
  have word : defaultMaxFrameSize < 2 ^ 32 := by decide
  refine ⟨fun w data => writeFrame_rejected defaultMaxFrameSize w data,
    frames_read_back defaultMaxFrameSize word payloads,?_⟩
  intro cut coming missing stream
  exact cut_frames_read_back defaultMaxFrameSize word payloads cut coming missing stream

theorem frame_round_trip_cut :
    readerTask defaultMaxFrameSize (writeFrames defaultMaxFrameSize ⟨[],none⟩ [[],[7,8]]).written =
      [.ok [],.ok [7,8],.error .brokenPipe] ∧
    ∃ before, before <+: accepted defaultMaxFrameSize [[],[7,8]] ∧
      before ≠ accepted defaultMaxFrameSize [[],[7,8]] ∧
      readerTask defaultMaxFrameSize [0,0,0,0,0,0,0,2,7] = before.map .ok ++ [.error .brokenPipe] :=
  ⟨(frame_round_trip [[],[7,8]]).2.1,
    (frame_round_trip [[],[7,8]]).2.2 [0,0,0,0,0,0,0,2,7] [8] (List.cons_ne_nil _ _) rfl⟩

end ClawKernel.Pal.Framing
