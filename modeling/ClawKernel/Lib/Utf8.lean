import Mathlib.Algebra.GroupWithZero.Nat
import Mathlib.Data.List.Basic
import Mathlib.Data.List.Forall2

/-! Lossy UTF-8 decoding: every maximal part of a byte string that begins a
character without completing it becomes one replacement character.
A lead byte fixes the ranges of the bytes that must follow it.
-/
namespace ClawKernel.Lib.Utf8

def replacement : Char := Char.ofNat 0xFFFD

def trailing (byte : UInt8) : Bool :=
  0x80 ≤ byte && byte ≤ 0xBF

abbrev Range := UInt8 × UInt8

def anyTail : Range := (0x80,0xBF)

/-- The ranges of the bytes after a lead byte, none for a byte that leads nothing. -/
def tails (lead : UInt8) : Option (List Range) :=
  if lead < 0x80 then some []
  else if lead < 0xC2 then none
  else if lead < 0xE0 then some [anyTail]
  else if lead = 0xE0 then some [(0xA0,0xBF),anyTail]
  else if lead = 0xED then some [(0x80,0x9F),anyTail]
  else if lead < 0xF0 then some [anyTail,anyTail]
  else if lead = 0xF0 then some [(0x90,0xBF),anyTail,anyTail]
  else if lead < 0xF4 then some [anyTail,anyTail,anyTail]
  else if lead = 0xF4 then some [(0x80,0x8F),anyTail,anyTail]
  else none

def within (range : Range) (byte : UInt8) : Bool :=
  range.1 ≤ byte && byte ≤ range.2

structure Taken where
  bytes : List UInt8
  rest : List UInt8
  complete : Bool
  deriving DecidableEq, Repr

def take : List Range → List UInt8 → Taken
  | [], bytes => ⟨[],bytes,true⟩
  | _ :: _, [] => ⟨[],[],false⟩
  | range :: ranges, byte :: bytes =>
    if within range byte then ⟨byte :: (take ranges bytes).bytes,(take ranges bytes).rest,(take ranges bytes).complete⟩
    else ⟨[],byte :: bytes,false⟩

def codePoint (lead : UInt8) (bytes : List UInt8) : Nat :=
  if bytes = [] then lead.toNat
  else bytes.foldl (fun value byte => value * 64 + byte.toNat % 64) (lead.toNat % 2 ^ (6 - bytes.length))

def decodeOne (lead : UInt8) (bytes : List UInt8) : Char × List UInt8 :=
  match tails lead with
  | none => (replacement,bytes)
  | some ranges =>
    if (take ranges bytes).complete then
      (Char.ofNat (codePoint lead (take ranges bytes).bytes),(take ranges bytes).rest)
    else (replacement,(take ranges bytes).rest)

def lossyUpTo : Nat → List UInt8 → List Char
  | 0, _ => []
  | _ + 1, [] => []
  | fuel + 1, lead :: bytes => (decodeOne lead bytes).1 :: lossyUpTo fuel (decodeOne lead bytes).2

def lossy (bytes : List UInt8) : List Char :=
  lossyUpTo bytes.length bytes

def encode (text : List Char) : List UInt8 :=
  text.flatMap String.utf8EncodeChar

private theorem take_rest_suffix (ranges : List Range) (bytes : List UInt8) :
    (take ranges bytes).rest <:+ bytes := by
  induction ranges generalizing bytes with
  | nil => exact List.suffix_refl _
  | cons range ranges ih =>
    cases bytes with
    | nil => exact List.suffix_refl _
    | cons byte bytes =>
      simp only [take]
      split
      · exact (ih bytes).trans (List.suffix_cons byte bytes)
      · exact List.suffix_refl _

theorem decodeOne_rest_suffix (lead : UInt8) (bytes : List UInt8) : (decodeOne lead bytes).2 <:+ bytes := by
  unfold decodeOne
  split
  · exact List.suffix_refl _
  · rename_i ranges _
    split <;> exact take_rest_suffix ranges bytes

theorem decodeOne_rest_le (lead : UInt8) (bytes : List UInt8) :
    (decodeOne lead bytes).2.length ≤ bytes.length :=
  (decodeOne_rest_suffix lead bytes).length_le

private theorem lossyUpTo_fuel (fuel other : Nat) (bytes : List UInt8) (enough : bytes.length ≤ fuel)
    (also : bytes.length ≤ other) : lossyUpTo fuel bytes = lossyUpTo other bytes := by
  induction fuel generalizing other bytes with
  | zero =>
    have empty : bytes = [] := List.length_eq_zero_iff.mp (by omega)
    subst empty
    cases other <;> rfl
  | succ fuel ih =>
    cases bytes with
    | nil => cases other <;> rfl
    | cons lead bytes =>
      cases other with
      | zero => simp at also
      | succ other =>
        have shorter := decodeOne_rest_le lead bytes
        simp only [List.length_cons] at enough also
        simp only [lossyUpTo]
        rw [ih other _ (by omega) (by omega)]

@[simp] theorem lossy_nil : lossy [] = [] := rfl

theorem lossy_cons (lead : UInt8) (bytes : List UInt8) :
    lossy (lead :: bytes) = (decodeOne lead bytes).1 :: lossy (decodeOne lead bytes).2 := by
  have shorter := decodeOne_rest_le lead bytes
  simp only [lossy,List.length_cons,lossyUpTo]
  rw [lossyUpTo_fuel bytes.length (decodeOne lead bytes).2.length _ shorter (Nat.le_refl _)]

private theorem take_append_complete (ranges : List Range) (bytes more : List UInt8)
    (complete : (take ranges bytes).complete = true) :
    take ranges (bytes ++ more) = ⟨(take ranges bytes).bytes,(take ranges bytes).rest ++ more,true⟩ := by
  induction ranges generalizing bytes with
  | nil => rfl
  | cons range ranges ih =>
    cases bytes with
    | nil => simp [take] at complete
    | cons byte bytes =>
      by_cases fits : within range byte = true
      · simp only [take,fits,if_true] at complete
        simp [take,fits,ih bytes complete]
      · simp [take,fits] at complete

private theorem take_append_broken (ranges : List Range) (bytes more : List UInt8)
    (left : (take ranges bytes).rest ≠ []) :
    take ranges (bytes ++ more) =
      ⟨(take ranges bytes).bytes,(take ranges bytes).rest ++ more,(take ranges bytes).complete⟩ := by
  induction ranges generalizing bytes with
  | nil => rfl
  | cons range ranges ih =>
    cases bytes with
    | nil => simp [take] at left
    | cons byte bytes =>
      by_cases fits : within range byte = true
      · simp only [take,fits,if_true] at left
        simp [take,fits,ih bytes left]
      · simp [take,fits]

def Leads (bytes : List UInt8) : Prop :=
  ∀ byte ∈ bytes.head?, trailing byte = false

private theorem take_append_leads (ranges : List Range) (inside : ∀ range ∈ ranges, ∀ byte,
    within range byte = true → trailing byte = true) (bytes more : List UInt8) (leads : Leads more) :
    take ranges (bytes ++ more) =
      ⟨(take ranges bytes).bytes,(take ranges bytes).rest ++ more,(take ranges bytes).complete⟩ := by
  induction ranges generalizing bytes with
  | nil => rfl
  | cons range ranges ih =>
    have later := fun other member => inside other (List.mem_cons_of_mem range member)
    cases bytes with
    | cons byte bytes =>
      by_cases fits : within range byte = true
      · simp [take,fits,ih later bytes]
      · simp [take,fits]
    | nil =>
      cases more with
      | nil => rfl
      | cons byte more =>
        have starts : trailing byte = false := leads byte rfl
        have out : within range byte = false := by
          by_contra fits
          have trails := inside range List.mem_cons_self byte (by simpa using fits)
          simp [starts] at trails
        simp [take,out]

private theorem tails_inside (lead : UInt8) (ranges : List Range) (found : tails lead = some ranges) :
    ∀ range ∈ ranges, ∀ byte, within range byte = true → trailing byte = true := by
  have lower : ∀ low high byte : UInt8, 0x80 ≤ low → high ≤ 0xBF → within (low,high) byte = true →
      trailing byte = true := by
    intro low high byte above below fits
    simp only [within,trailing,Bool.and_eq_true,decide_eq_true_eq] at fits ⊢
    exact ⟨UInt8.le_trans above fits.1,UInt8.le_trans fits.2 below⟩
  have bounds : ∀ range ∈ ranges, 0x80 ≤ range.1 ∧ range.2 ≤ 0xBF := by
    unfold tails at found
    repeat' split at found
    all_goals cases found
    all_goals simp [anyTail]
  intro range member byte
  exact lower range.1 range.2 byte (bounds range member).1 (bounds range member).2

theorem decodeOne_append_leads (lead : UInt8) (bytes more : List UInt8) (leads : Leads more) :
    decodeOne lead (bytes ++ more) = ((decodeOne lead bytes).1,(decodeOne lead bytes).2 ++ more) := by
  unfold decodeOne
  cases found : tails lead with
  | none => rfl
  | some ranges =>
    simp only [take_append_leads ranges (tails_inside lead ranges found) bytes more leads]
    split <;> rfl

theorem decodeOne_append_kept (lead : UInt8) (bytes more : List UInt8)
    (kept : (decodeOne lead bytes).1 ≠ replacement ∨ (decodeOne lead bytes).2 ≠ []) :
    decodeOne lead (bytes ++ more) = ((decodeOne lead bytes).1,(decodeOne lead bytes).2 ++ more) := by
  unfold decodeOne at kept ⊢
  cases found : tails lead with
  | none => rfl
  | some ranges =>
    simp only [found] at kept ⊢
    cases complete : (take ranges bytes).complete with
    | true => simp [take_append_complete ranges bytes more complete]
    | false =>
      simp only [complete,Bool.false_eq_true,if_false,ne_eq,not_true_eq_false,false_or] at kept
      simp [take_append_broken ranges bytes more kept,complete]

/-- Decoding splits before every byte that cannot continue a character. -/
theorem lossy_append_leads (bytes more : List UInt8) (leads : Leads more) :
    lossy (bytes ++ more) = lossy bytes ++ lossy more := by
  induction size : bytes.length using Nat.strongRecOn generalizing bytes with
  | _ n ih =>
    cases bytes with
    | nil => rfl
    | cons lead bytes =>
      have shorter := decodeOne_rest_le lead bytes
      simp only [List.length_cons] at size
      rw [List.cons_append,lossy_cons,lossy_cons,decodeOne_append_leads lead bytes more leads,List.cons_append,
        ih _ (by omega) _ rfl]

theorem lossy_append_kept (bytes more : List UInt8) (kept : (lossy bytes).getLast? ≠ some replacement) :
    lossy (bytes ++ more) = lossy bytes ++ lossy more := by
  induction size : bytes.length using Nat.strongRecOn generalizing bytes with
  | _ n ih =>
    cases bytes with
    | nil => rfl
    | cons lead bytes =>
      have shorter := decodeOne_rest_le lead bytes
      simp only [List.length_cons] at size
      rw [lossy_cons] at kept
      have whole : (decodeOne lead bytes).1 ≠ replacement ∨ (decodeOne lead bytes).2 ≠ [] := by
        by_contra broken
        simp only [not_or,Classical.not_not] at broken
        rw [broken.1,broken.2] at kept
        exact kept rfl
      have later : (lossy (decodeOne lead bytes).2).getLast? ≠ some replacement := by
        cases tail : lossy (decodeOne lead bytes).2 with
        | nil => simp
        | cons c rest =>
          rw [tail,List.getLast?_cons_cons] at kept
          exact kept
      rw [List.cons_append,lossy_cons,lossy_cons,decodeOne_append_kept lead bytes more whole,List.cons_append,
        ih _ (by omega) _ later rfl]

theorem decodeOne_trailing (byte : UInt8) (bytes : List UInt8) (trails : trailing byte = true) :
    decodeOne byte bytes = (replacement,bytes) := by
  have none : tails byte = none := by
    simp only [trailing,Bool.and_eq_true,decide_eq_true_eq] at trails
    unfold tails
    rw [if_neg (UInt8.not_lt.mpr trails.1),if_pos (UInt8.lt_of_le_of_lt trails.2 (by decide))]
  simp [decodeOne,none]

theorem leads_of_head (bytes : List UInt8) (whole : (lossy bytes).head? ≠ some replacement) : Leads bytes := by
  intro byte first
  cases bytes with
  | nil => cases first
  | cons lead bytes =>
    simp only [List.head?_cons,Option.mem_some_iff] at first
    subst first
    by_contra trails
    rw [lossy_cons,decodeOne_trailing lead bytes (by simpa using trails)] at whole
    exact whole rfl

theorem lossy_ascii (byte : UInt8) (bytes : List UInt8) (ascii : byte < 0x80) :
    lossy (byte :: bytes) = Char.ofNat byte.toNat :: lossy bytes := by
  rw [lossy_cons]
  simp [decodeOne,tails,ascii,take,codePoint]

private theorem take_complete (ranges : List Range) (bytes : List UInt8)
    (complete : (take ranges bytes).complete = true) :
    List.Forall₂ (fun range byte => within range byte = true) ranges (take ranges bytes).bytes := by
  induction ranges generalizing bytes with
  | nil => exact .nil
  | cons range ranges ih =>
    cases bytes with
    | nil => simp [take] at complete
    | cons byte bytes =>
      by_cases fits : within range byte = true
      · simp only [take,fits,if_true] at complete ⊢
        exact .cons fits (ih bytes complete)
      · simp [take,fits] at complete

private theorem within_toNat (low high byte : UInt8) (fits : within (low,high) byte = true) :
    low.toNat ≤ byte.toNat ∧ byte.toNat ≤ high.toNat := by
  simp only [within,Bool.and_eq_true,decide_eq_true_eq] at fits
  exact ⟨UInt8.le_iff_toNat_le.mp fits.1,UInt8.le_iff_toNat_le.mp fits.2⟩

private theorem codePoint_one (lead b : UInt8) :
    codePoint lead [b] = lead.toNat % 32 * 64 + b.toNat % 64 := rfl

private theorem codePoint_two (lead b c : UInt8) :
    codePoint lead [b,c] = (lead.toNat % 16 * 64 + b.toNat % 64) * 64 + c.toNat % 64 := rfl

private theorem codePoint_three (lead b c d : UInt8) :
    codePoint lead [b,c,d] = ((lead.toNat % 8 * 64 + b.toNat % 64) * 64 + c.toNat % 64) * 64 + d.toNat % 64 := rfl

private theorem codePoint_large (lead : UInt8) (ranges : List Range) (bytes : List UInt8)
    (found : tails lead = some ranges) (several : ranges ≠ [])
    (fits : List.Forall₂ (fun range byte => within range byte = true) ranges bytes) :
    128 ≤ codePoint lead bytes := by
  have bound := lead.toNat_lt
  unfold tails at found
  simp only [UInt8.lt_iff_toNat_lt,← UInt8.toNat_inj] at found
  repeat' split at found
  all_goals simp only [Option.some.injEq,reduceCtorEq] at found
  all_goals subst found
  all_goals simp only [List.forall₂_cons_left_iff,List.forall₂_nil_left_iff,anyTail] at fits
  · exact absurd rfl several
  · obtain ⟨b,_,first,rfl,rfl⟩ := fits
    have range := within_toNat _ _ b first
    simp only [UInt8.reduceToNat] at *
    rw [codePoint_one]
    omega
  -- Two bytes follow: the lead byte or the first of them carries a high bit.
  iterate 3
    obtain ⟨b,_,first,⟨c,_,_,rfl,rfl⟩,rfl⟩ := fits
    have range := within_toNat _ _ b first
    simp only [UInt8.reduceToNat] at *
    rw [codePoint_two]
    omega
  iterate 3
    obtain ⟨b,_,first,⟨c,_,_,⟨d,_,_,rfl,rfl⟩,rfl⟩,rfl⟩ := fits
    have range := within_toNat _ _ b first
    simp only [UInt8.reduceToNat] at *
    rw [codePoint_three]
    omega

private theorem ofNat_newline (n : Nat) (newline : Char.ofNat n = '\n') : n = 10 := by
  unfold Char.ofNat at newline
  by_cases valid : n.isValidChar
  · rw [dif_pos valid] at newline
    exact congrArg Char.toNat newline
  · rw [dif_neg valid] at newline
    cases newline

theorem decodeOne_newline (lead : UInt8) (bytes : List UInt8) (newline : (decodeOne lead bytes).1 = '\n') :
    lead = 10 := by
  unfold decodeOne at newline
  cases found : tails lead with
  | none =>
    simp only [found] at newline
    exact absurd newline (by decide)
  | some ranges =>
    simp only [found] at newline
    cases complete : (take ranges bytes).complete with
    | false =>
      simp only [complete,Bool.false_eq_true,if_false] at newline
      exact absurd newline (by decide)
    | true =>
      simp only [complete,if_true] at newline
      have value := ofNat_newline _ newline
      have fits := take_complete ranges bytes complete
      by_cases single : ranges = []
      · subst single
        rw [List.forall₂_nil_left_iff.mp fits] at value
        exact UInt8.toNat_inj.mp value
      · have large := codePoint_large lead ranges _ found single fits
        omega

theorem newline_mem (bytes : List UInt8) (member : '\n' ∈ lossy bytes) : 10 ∈ bytes := by
  induction size : bytes.length using Nat.strongRecOn generalizing bytes with
  | _ n ih =>
    cases bytes with
    | nil => simp at member
    | cons lead bytes =>
      have shorter := decodeOne_rest_le lead bytes
      simp only [List.length_cons] at size
      rw [lossy_cons,List.mem_cons] at member
      rcases member with first | later
      · rw [decodeOne_newline lead bytes first.symm]
        exact List.mem_cons_self
      · have inside := ih _ (by omega) _ later rfl
        exact List.mem_cons_of_mem lead ((decodeOne_rest_suffix lead bytes).subset inside)

theorem lossy_newline (bytes : List UInt8) : lossy (10 :: bytes) = '\n' :: lossy bytes :=
  lossy_ascii 10 bytes (by decide)

end ClawKernel.Lib.Utf8
