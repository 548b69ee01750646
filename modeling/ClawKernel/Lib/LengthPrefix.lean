import Mathlib.Algebra.GroupWithZero.Nat
import Mathlib.Data.List.Basic
import Mathlib.Data.List.Infix

/-! Byte strings framed by a four-byte big-endian length prefix.
The prefix holds the length modulo 2^32, as a cast to a 32-bit word writes it.
-/
namespace ClawKernel.Lib.LengthPrefix

abbrev Bytes := List UInt8

def be32 (n : Nat) : Bytes :=
  [UInt8.ofNat (n / 2 ^ 24),UInt8.ofNat (n / 2 ^ 16),UInt8.ofNat (n / 2 ^ 8),UInt8.ofNat n]

def ofBe32 (bytes : Bytes) : Nat :=
  bytes.foldl (fun value byte => value * 256 + byte.toNat) 0

def frame (payload : Bytes) : Bytes :=
  be32 payload.length ++ payload

@[simp] theorem be32_length (n : Nat) : (be32 n).length = 4 := rfl

@[simp] theorem frame_length (payload : Bytes) : (frame payload).length = 4 + payload.length := by
  simp [frame]

theorem frame_ne_nil (payload : Bytes) : frame payload ≠ [] := by
  simp [frame,be32]

theorem ofBe32_be32 (n : Nat) : ofBe32 (be32 n) = n % 2 ^ 32 := by
  simp only [ofBe32,be32,List.foldl_cons,List.foldl_nil,UInt8.toNat_ofNat']
  omega

/-- What stands at the front of a byte string read as frames of at most `limit`
bytes: too few bytes yet, a length above the limit, or one whole frame. -/
inductive Split where
  | incomplete
  | oversize (length : Nat)
  | whole (payload rest : Bytes)
  deriving DecidableEq, Repr

def split (limit : Nat) (bytes : Bytes) : Split :=
  if bytes.length < 4 then .incomplete
  else if limit < ofBe32 (bytes.take 4) then .oversize (ofBe32 (bytes.take 4))
  else if bytes.length < 4 + ofBe32 (bytes.take 4) then .incomplete
  else .whole ((bytes.drop 4).take (ofBe32 (bytes.take 4))) (bytes.drop (4 + ofBe32 (bytes.take 4)))

@[simp] theorem split_nil (limit : Nat) : split limit [] = .incomplete := rfl

theorem split_header (limit : Nat) (header tail : Bytes) (four : header.length = 4) :
    split limit (header ++ tail) =
      if limit < ofBe32 header then .oversize (ofBe32 header)
      else if tail.length < ofBe32 header then .incomplete
      else .whole (tail.take (ofBe32 header)) (tail.drop (ofBe32 header)) := by
  have taken : (header ++ tail).take 4 = header := by rw [← four]; simp
  have dropped : (header ++ tail).drop 4 = tail := by rw [← four]; simp
  have deeper : (header ++ tail).drop (4 + ofBe32 header) = tail.drop (ofBe32 header) := by
    rw [← List.drop_drop,dropped]
  unfold split
  rw [taken,dropped,deeper]
  simp only [List.length_append,four]
  rw [if_neg (by omega)]
  by_cases above : limit < ofBe32 header
  · rw [if_pos above,if_pos above]
  · rw [if_neg above,if_neg above]
    by_cases short : tail.length < ofBe32 header
    · rw [if_pos (by omega),if_pos short]
    · rw [if_neg (by omega),if_neg short]

theorem split_frame (limit : Nat) (payload rest : Bytes) (fits : payload.length ≤ limit)
    (word : payload.length < 2 ^ 32) : split limit (frame payload ++ rest) = .whole payload rest := by
  have value : ofBe32 (be32 payload.length) = payload.length := by
    rw [ofBe32_be32,Nat.mod_eq_of_lt word]
  rw [frame,List.append_assoc,split_header limit _ _ (be32_length _),value,
    if_neg (by omega),if_neg (by simp)]
  simp

theorem split_short (limit : Nat) (payload bytes rest : Bytes) (fits : payload.length ≤ limit)
    (word : payload.length < 2 ^ 32) (joined : bytes ++ rest = frame payload) (missing : rest ≠ []) :
    split limit bytes = .incomplete := by
  have total : bytes.length + rest.length = 4 + payload.length := by
    simpa using congrArg List.length joined
  have positive : 0 < rest.length := List.length_pos_iff.mpr missing
  by_cases short : bytes.length < 4
  · simp [split,short]
  · have front : bytes.take 4 = be32 payload.length := by
      have same := congrArg (List.take 4) joined
      rw [List.take_append_of_le_length (by omega)] at same
      simpa [frame,be32] using same
    have value : ofBe32 (bytes.take 4) = payload.length := by
      rw [front,ofBe32_be32,Nat.mod_eq_of_lt word]
    unfold split
    rw [if_neg short,value,if_neg (by omega),if_pos (by omega)]

theorem whole_length (limit : Nat) (bytes payload rest : Bytes)
    (found : split limit bytes = .whole payload rest) :
    bytes.length = 4 + payload.length + rest.length := by
  unfold split at found
  split at found
  · cases found
  · split at found
    · cases found
    · split at found
      · cases found
      · simp only [Split.whole.injEq] at found
        obtain ⟨rfl,rfl⟩ := found
        simp only [List.length_take,List.length_drop]
        omega

/-- The front of a stream of frames, cut anywhere: the next frame stands there
whole, or it does not yet and bytes of it are still to come. -/
theorem split_stream (limit : Nat) (word : limit < 2 ^ 32) (payloads : List Bytes)
    (fits : ∀ payload ∈ payloads, payload.length ≤ limit) (bytes coming : Bytes)
    (stream : bytes ++ coming = payloads.flatMap frame) :
    (split limit bytes = .incomplete ∧ (coming = [] → payloads = [])) ∨
    ∃ payload later rest, payloads = payload :: later ∧ split limit bytes = .whole payload rest ∧
      rest ++ coming = later.flatMap frame := by
  cases payloads with
  | nil =>
    simp only [List.flatMap_nil,List.append_eq_nil_iff] at stream
    exact .inl ⟨by rw [stream.1,split_nil],fun _ => rfl⟩
  | cons payload later =>
    have small : payload.length ≤ limit := fits payload List.mem_cons_self
    have whole : ∀ rest, bytes = frame payload ++ rest → split limit bytes = .whole payload rest := by
      rintro rest rfl
      exact split_frame limit payload rest small (by omega)
    rw [List.flatMap_cons,List.append_eq_append_iff] at stream
    rcases stream with ⟨missing,joined,tail⟩ | ⟨rest,joined,tail⟩
    · by_cases none : missing = []
      · subst none
        refine .inr ⟨payload,later,[],rfl,whole [] (by simpa using joined.symm),by simpa using tail⟩
      · refine .inl ⟨split_short limit payload bytes missing small (by omega) joined.symm none,?_⟩
        intro empty
        rw [empty] at tail
        simp [none] at tail
    · exact .inr ⟨payload,later,rest,rfl,whole rest joined,tail.symm⟩

/-- All the frames that stand whole at the front of a byte string, as a peer
that reads one after another takes them. -/
def deframeUpTo (limit : Nat) : Nat → Bytes → List Bytes
  | 0, _ => []
  | fuel + 1, bytes =>
    match split limit bytes with
    | .whole payload rest => payload :: deframeUpTo limit fuel rest
    | _ => []

def deframe (limit : Nat) (bytes : Bytes) : List Bytes :=
  deframeUpTo limit bytes.length bytes

theorem deframeUpTo_stream (limit fuel : Nat) (word : limit < 2 ^ 32) (payloads : List Bytes)
    (fits : ∀ payload ∈ payloads, payload.length ≤ limit) (bytes coming : Bytes)
    (stream : bytes ++ coming = payloads.flatMap frame) : deframeUpTo limit fuel bytes <+: payloads := by
  induction fuel generalizing payloads bytes with
  | zero => exact List.nil_prefix
  | succ fuel ih =>
    rw [deframeUpTo]
    rcases split_stream limit word payloads fits bytes coming stream with
      ⟨short,-⟩ | ⟨payload,later,rest,rfl,found,tail⟩
    · rw [short]
      exact List.nil_prefix
    · rw [found]
      exact List.cons_prefix_cons.mpr
        ⟨rfl,ih later (fun p member => fits p (List.mem_cons_of_mem payload member)) rest tail⟩

theorem deframe_stream (limit : Nat) (word : limit < 2 ^ 32) (payloads : List Bytes)
    (fits : ∀ payload ∈ payloads, payload.length ≤ limit) (bytes coming : Bytes)
    (stream : bytes ++ coming = payloads.flatMap frame) : deframe limit bytes <+: payloads :=
  deframeUpTo_stream limit bytes.length word payloads fits bytes coming stream

end ClawKernel.Lib.LengthPrefix
