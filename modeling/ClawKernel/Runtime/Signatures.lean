import ClawKernel.Lib.Hmac
import ClawKernel.Runtime.WebhookServer

/-! Webhook signatures: `verify_hmac_sha256`, which slices a text by its bytes, and the inline
check of the trigger server, which compares texts.
-/
namespace ClawKernel.Runtime.Signatures
open Lib.Hmac
open Server.Webhook (stripPrefix hexValue hexPair hexDecode hexDigit hexEncode computeHmacSha256)

inductive WebhookError where
  | emptyBody
  | invalidSignature
  | hmacVerificationFailed
  deriving DecidableEq, Repr

def WebhookError.text : WebhookError → String
  | .emptyBody => "request body is empty"
  | .invalidSignature => "invalid signature format"
  | .hmacVerificationFailed => "HMAC verification failed"

/-- What a call comes to: `none` is a panic. -/
abbrev Ended (ε α : Type) := Option (Except ε α)

/-- The slices of two bytes, read one after the other. A slice that ends within a character panics. -/
def decodePairs : List Char → Ended Unit (List UInt8)
  | [] => some (.ok [])
  | c :: rest =>
    if c.utf8Size = 1 then
      match rest with
      | [] => none
      | d :: rest =>
        if d.utf8Size = 1 then
          match hexPair c d with
          | none => some (.error ())
          | some byte => (decodePairs rest).map (fun read => read.map (byte :: ·))
        else none
    else if c.utf8Size = 2 then some (.error ())
    else none

def decode (s : String) : Ended Unit (List UInt8) :=
  if s.utf8ByteSize % 2 ≠ 0 then some (.error ()) else decodePairs s.toList

def constantTimeEq (a b : List UInt8) : Bool :=
  if a.length ≠ b.length then false
  else ((a.zip b).foldl (fun result pair => result ||| (pair.1 ^^^ pair.2)) 0) == 0

section Checks
variable (sha : Sha256)

def verifyHmacSha256 (secret : String) (body : List UInt8) (signature : String) : Ended WebhookError Unit :=
  if body.isEmpty then some (.error .emptyBody)
  else
    let sigHex := (stripPrefix "sha256=" signature).getD signature
    match decode sigHex with
    | none => none
    | some (.error _) => some (.error .invalidSignature)
    | some (.ok sigBytes) =>
      let expected := computeHmacSha256 sha.digest secret body
      if constantTimeEq sigBytes expected then some (.ok ()) else some (.error .hmacVerificationFailed)

/-- The comparison in `handle_webhook`. -/
def inlineAccepts (secret : String) (body : List UInt8) (signature : String) : Bool :=
  (stripPrefix "sha256=" signature).getD signature =
    String.ofList (hexEncode (computeHmacSha256 sha.digest secret body))

/-- The code for signatures, over the bytes of the secret, is HMAC. -/
theorem computeHmacSha256_eq (secret : String) (body : List UInt8) :
    computeHmacSha256 sha.digest secret body = hmac sha.digest 64 secret.toUTF8.toList body := by
  unfold hmac
  rw [masked_eq,masked_eq]
  rfl

theorem or_xor_fold (pairs : List (UInt8 × UInt8)) (result : UInt8) :
    pairs.foldl (fun result pair => result ||| (pair.1 ^^^ pair.2)) result = 0 ↔
      result = 0 ∧ ∀ pair ∈ pairs, pair.1 = pair.2 := by
  induction pairs generalizing result with
  | nil => simp
  | cons pair rest ih =>
    rw [List.foldl_cons,ih,UInt8.or_eq_zero_iff,UInt8.xor_eq_zero_iff,List.forall_mem_cons,and_assoc]

theorem zip_all_iff (a b : List UInt8) (same : a.length = b.length) :
    (∀ pair ∈ a.zip b, pair.1 = pair.2) ↔ a = b := by
  induction a generalizing b with
  | nil =>
    obtain rfl := List.length_eq_zero_iff.mp same.symm
    simp
  | cons x a ih =>
    cases b with
    | nil => cases same
    | cons y b =>
      rw [List.zip_cons_cons,List.forall_mem_cons,ih b (Nat.succ.inj same),List.cons_eq_cons]

theorem constantTimeEq_eq (a b : List UInt8) : constantTimeEq a b = decide (a = b) := by
  unfold constantTimeEq
  by_cases same : a.length = b.length
  · rw [if_neg (not_not.mpr same),Bool.eq_iff_iff,beq_iff_eq,or_xor_fold,zip_all_iff a b same,decide_eq_true_iff]
    exact and_iff_right rfl
  · rw [if_pos same]
    exact (decide_eq_false (fun equal => same (congrArg List.length equal))).symm

end Checks

/-! Digits and pairs of them. -/

theorem hexValue_small (c : Char) (n : Nat) (digit : hexValue c = some n) : c.toNat ≤ 102 := by
  unfold hexValue at digit
  split_ifs at digit with decimal lower upper
  · exact Nat.le_trans decimal.2 (by decide)
  · exact lower.2
  · exact Nat.le_trans upper.2 (by decide)

theorem toLower_large (c : Char) (large : 128 ≤ c.toNat) : c.toLower = c := by
  unfold Char.toLower
  rw [dif_neg]
  rintro ⟨_,upper⟩
  have : c.toNat ≤ 90 := upper
  omega

theorem hexValue_table : ∀ k < 128, ∀ n < 16,
    hexValue (Char.ofNat k) = some n ↔ (Char.ofNat k).toLower = hexDigit n := by
  decide +kernel

theorem hexValue_values : ∀ k < 128, (hexValue (Char.ofNat k)).all (fun n => decide (n < 16)) = true := by
  decide +kernel

theorem hexDigit_small : ∀ n < 16, (hexDigit n).toNat < 128 := by decide

theorem hexValue_lt (c : Char) (n : Nat) (digit : hexValue c = some n) : n < 16 := by
  have values := hexValue_values c.toNat (Nat.lt_of_le_of_lt (hexValue_small c n digit) (by decide))
  rw [Char.ofNat_toNat,digit] at values
  exact of_decide_eq_true values

/-- The value of a digit in either case. -/
theorem hexValue_iff (c : Char) (n : Nat) (small : n < 16) : hexValue c = some n ↔ c.toLower = hexDigit n := by
  by_cases ascii : c.toNat < 128
  · have table := hexValue_table c.toNat ascii n small
    rwa [Char.ofNat_toNat] at table
  · refine iff_of_false (fun digit => ascii (Nat.lt_of_le_of_lt (hexValue_small c n digit) (by decide))) (fun same => ?_)
    rw [toLower_large c (by omega)] at same
    exact ascii (same ▸ hexDigit_small n small)

theorem utf8Size_of_digit (c : Char) (n : Nat) (digit : hexValue c = some n) : c.utf8Size = 1 :=
  Char.utf8Size_eq_one_iff.mpr (Nat.le_trans (hexValue_small c n digit) (by decide))

/-- A pair that can be read takes two bytes. -/
theorem utf8Size_of_pair (c d : Char) (byte : UInt8) (read : hexPair c d = some byte) :
    c.utf8Size = 1 ∧ d.utf8Size = 1 := by
  unfold hexPair at read
  split_ifs at read with plus
  · obtain ⟨low,digit,_⟩ := Option.map_eq_some_iff.mp read
    exact ⟨plus ▸ rfl,utf8Size_of_digit d low digit⟩
  · obtain ⟨high,first,rest⟩ := Option.bind_eq_some_iff.mp read
    obtain ⟨low,digit,_⟩ := Option.map_eq_some_iff.mp rest
    exact ⟨utf8Size_of_digit c high first,utf8Size_of_digit d low digit⟩

/-- The bytes are read exactly where all pairs can be, whatever else the slices would do. -/
theorem decodePairs_ok (chars : List Char) (bytes : List UInt8) :
    decodePairs chars = some (.ok bytes) ↔ hexDecode chars = some bytes := by
  induction chars using Server.Webhook.hexDecode.induct generalizing bytes with
  | case1 => simp [decodePairs,hexDecode]
  | case2 c =>
    unfold decodePairs hexDecode
    split_ifs <;> simp
  | case3 c d rest ih =>
    rw [hexDecode]
    cases read : hexPair c d with
    | none =>
      refine iff_of_false (fun ended => ?_) (by simp)
      unfold decodePairs at ended
      split_ifs at ended
      · simp [read] at ended
      · cases ended
    | some byte =>
      obtain ⟨first,second⟩ := utf8Size_of_pair c d byte read
      rw [decodePairs]
      simp only [first,second,read,if_true,Option.bind_some]
      constructor
      · intro ended
        obtain ⟨result,rest_ended,same⟩ := Option.map_eq_some_iff.mp ended
        cases result with
        | error _ => cases same
        | ok tail =>
          rw [(ih tail).mp rest_ended]
          exact congrArg some (Except.ok.inj same)
      · intro decoded
        obtain ⟨tail,rest_read,same⟩ := Option.map_eq_some_iff.mp decoded
        rw [(ih tail).mpr rest_read,← same]
        rfl

def byteSize (chars : List Char) : Nat := chars.foldr (fun c size => c.utf8Size + size) 0

theorem utf8ByteSize_ofList (chars : List Char) : (String.ofList chars).utf8ByteSize = byteSize chars := by
  induction chars with
  | nil => rfl
  | cons c rest ih =>
    rw [← List.singleton_append,String.ofList_append,String.utf8ByteSize_append,ih,← String.singleton_eq_ofList,
      String.utf8ByteSize_singleton]
    rfl

theorem byteSize_of_decoded (chars : List Char) (bytes : List UInt8) (read : hexDecode chars = some bytes) :
    byteSize chars % 2 = 0 := by
  induction chars using Server.Webhook.hexDecode.induct generalizing bytes with
  | case1 => rfl
  | case2 c => cases read
  | case3 c d rest ih =>
    rw [hexDecode] at read
    obtain ⟨byte,pair,tail⟩ := Option.bind_eq_some_iff.mp read
    obtain ⟨later,rest_read,_⟩ := Option.map_eq_some_iff.mp tail
    obtain ⟨first,second⟩ := utf8Size_of_pair c d byte pair
    have even := ih later rest_read
    simp only [byteSize,List.foldr_cons,first,second] at even ⊢
    omega

theorem decode_ok (s : String) (bytes : List UInt8) : decode s = some (.ok bytes) ↔ hexDecode s.toList = some bytes := by
  have size : s.utf8ByteSize = byteSize s.toList := by
    rw [← utf8ByteSize_ofList,String.ofList_toList]
  unfold decode
  split_ifs with odd
  · refine iff_of_false (by simp) (fun read => ?_)
    rw [size] at odd
    exact odd (byteSize_of_decoded s.toList bytes read)
  · exact decodePairs_ok s.toList bytes

/-! Where a slice ends within a character. -/

/-- The first slice ends within a character. -/
inductive Cuts : List Char → Prop where
  | long (c : Char) (rest : List Char) (wide : 2 < c.utf8Size) : Cuts (c :: rest)
  | second (c d : Char) (rest : List Char) (narrow : c.utf8Size = 1) (wide : d.utf8Size ≠ 1) : Cuts (c :: d :: rest)

/-- A slice ends within a character, after pairs that can be read. -/
def Slips (chars : List Char) : Prop := ∃ pairs rest, chars = pairs ++ rest ∧ (hexDecode pairs).isSome ∧ Cuts rest

theorem decodePairs_append (pairs rest : List Char) (bytes : List UInt8) (read : hexDecode pairs = some bytes) :
    decodePairs (pairs ++ rest) = (decodePairs rest).map (fun later => later.map (bytes ++ ·)) := by
  induction pairs using Server.Webhook.hexDecode.induct generalizing bytes with
  | case1 =>
    cases read
    rw [List.nil_append]
    cases decodePairs rest with
    | none => rfl
    | some later => cases later <;> rfl
  | case2 c => cases read
  | case3 c d pairs ih =>
    rw [hexDecode] at read
    obtain ⟨byte,pair,tail⟩ := Option.bind_eq_some_iff.mp read
    obtain ⟨later,rest_read,rfl⟩ := Option.map_eq_some_iff.mp tail
    obtain ⟨first,second⟩ := utf8Size_of_pair c d byte pair
    rw [List.cons_append,List.cons_append,decodePairs]
    simp only [first,second,pair,if_true]
    rw [ih later rest_read,Option.map_map]
    refine congrArg (fun f => (decodePairs rest).map f) (funext (fun result => ?_))
    cases result <;> rfl

theorem decodePairs_cuts (rest : List Char) (cuts : Cuts rest) : decodePairs rest = none := by
  cases cuts with
  | long c rest wide =>
    unfold decodePairs
    rw [if_neg (by omega),if_neg (by omega)]
  | second c d rest narrow wide =>
    rw [decodePairs]
    simp only [narrow,wide,if_true,if_false]

/-- A text of an even number of bytes makes the decoder panic exactly when it slips. -/
theorem decodePairs_none (chars : List Char) (even : byteSize chars % 2 = 0) : decodePairs chars = none ↔ Slips chars := by
  constructor
  · intro panics
    induction chars using Server.Webhook.hexDecode.induct with
    | case1 => cases panics
    | case2 c =>
      have small := c.utf8Size_le_four
      unfold decodePairs at panics
      simp only [byteSize,List.foldr_cons,List.foldr_nil] at even
      split_ifs at panics with one two
      · omega
      · have positive := c.utf8Size_pos
        exact ⟨[],[c],rfl,rfl,.long c [] (by omega)⟩
    | case3 c d rest ih =>
      rw [decodePairs] at panics
      by_cases first : c.utf8Size = 1
      · by_cases second : d.utf8Size = 1
        · simp only [first,second,if_true] at panics
          cases pair : hexPair c d with
          | none => simp [pair] at panics
          | some byte =>
            simp only [pair,Option.map_eq_none_iff] at panics
            have later : byteSize rest % 2 = 0 := by
              simp only [byteSize,List.foldr_cons,first,second] at even ⊢
              omega
            obtain ⟨pairs,tail,rfl,read,cuts⟩ := ih later panics
            refine ⟨c :: d :: pairs,tail,rfl,?_,cuts⟩
            rw [hexDecode,pair,Option.bind_some,Option.isSome_map]
            exact read
        · exact ⟨[],c :: d :: rest,rfl,rfl,.second c d rest first second⟩
      · by_cases two : c.utf8Size = 2
        · simp [two] at panics
        · have positive := c.utf8Size_pos
          exact ⟨[],c :: d :: rest,rfl,rfl,.long c (d :: rest) (by omega)⟩
  · rintro ⟨pairs,rest,rfl,read,cuts⟩
    obtain ⟨bytes,read⟩ := Option.isSome_iff_exists.mp read
    rw [decodePairs_append pairs rest bytes read,decodePairs_cuts rest cuts]
    rfl

theorem decode_none (s : String) : decode s = none ↔ s.utf8ByteSize % 2 = 0 ∧ Slips s.toList := by
  have size : s.utf8ByteSize = byteSize s.toList := by
    rw [← utf8ByteSize_ofList,String.ofList_toList]
  unfold decode
  split_ifs with odd
  · exact iff_of_false (by simp) (fun both => odd both.1)
  · rw [decodePairs_none _ (by omega),and_iff_right (by omega)]

/-! Encodings in either case. -/

/-- The text is a hexadecimal encoding of the bytes, in either case. -/
def Encodes (text : List Char) (bytes : List UInt8) : Prop := text.map Char.toLower = hexEncode bytes

/-- A character that a lowercase encoding has not, though it may stand where a pair is read. -/
def Stray (text : List Char) : Prop := ∃ c ∈ text, c = '+' ∨ c.toLower ≠ c

theorem hexPair_iff (c d : Char) (byte : UInt8) (digit : c ≠ '+') :
    hexPair c d = some byte ↔ c.toLower = hexDigit (byte.toNat / 16) ∧ d.toLower = hexDigit (byte.toNat % 16) := by
  have size := byte.toNat_lt
  have high_lt : byte.toNat / 16 < 16 := by omega
  have low_lt : byte.toNat % 16 < 16 := by omega
  rw [hexPair,if_neg digit,← hexValue_iff c _ high_lt,← hexValue_iff d _ low_lt]
  constructor
  · intro read
    obtain ⟨high,first,rest⟩ := Option.bind_eq_some_iff.mp read
    obtain ⟨low,second,rfl⟩ := Option.map_eq_some_iff.mp rest
    have one := hexValue_lt c high first
    have two := hexValue_lt d low second
    have value : (UInt8.ofNat (16 * high + low)).toNat = 16 * high + low := by
      rw [UInt8.toNat_ofNat']
      omega
    rw [value,first,second]
    constructor
    · congr
      omega
    · congr
      omega
  · rintro ⟨first,second⟩
    have whole : 16 * (byte.toNat / 16) + byte.toNat % 16 = byte.toNat := by omega
    rw [first,second,Option.bind_some,Option.map_some,whole,UInt8.ofNat_toNat]

theorem hexEncode_cons (byte : UInt8) (bytes : List UInt8) :
    hexEncode (byte :: bytes) = hexDigit (byte.toNat / 16) :: hexDigit (byte.toNat % 16) :: hexEncode bytes := rfl

theorem hexDecode_iff (text : List Char) (bytes : List UInt8) (digits : '+' ∉ text) :
    hexDecode text = some bytes ↔ Encodes text bytes := by
  unfold Encodes
  induction text using Server.Webhook.hexDecode.induct generalizing bytes with
  | case1 =>
    cases bytes with
    | nil => exact iff_of_true rfl rfl
    | cons byte bytes => exact iff_of_false (by simp [hexDecode]) (by simp [hexEncode_cons])
  | case2 c =>
    cases bytes with
    | nil => exact iff_of_false (by simp [hexDecode]) (by simp [hexEncode])
    | cons byte bytes => exact iff_of_false (by simp [hexDecode]) (by simp [hexEncode_cons])
  | case3 c d rest ih =>
    have plain : c ≠ '+' := fun same => digits (same ▸ List.mem_cons_self)
    have later : '+' ∉ rest := fun member => digits (List.mem_cons_of_mem _ (List.mem_cons_of_mem _ member))
    rw [hexDecode,List.map_cons,List.map_cons]
    cases bytes with
    | nil =>
      refine iff_of_false (fun read => ?_) (by simp [hexEncode])
      obtain ⟨_,_,tail⟩ := Option.bind_eq_some_iff.mp read
      obtain ⟨_,_,same⟩ := Option.map_eq_some_iff.mp tail
      cases same
    | cons byte bytes =>
      rw [hexEncode_cons,List.cons_eq_cons,List.cons_eq_cons,← ih bytes later,← and_assoc,← hexPair_iff c d byte plain]
      constructor
      · intro read
        obtain ⟨_,pair,tail⟩ := Option.bind_eq_some_iff.mp read
        obtain ⟨_,rest_read,same⟩ := Option.map_eq_some_iff.mp tail
        obtain ⟨rfl,rfl⟩ := List.cons_eq_cons.mp same
        exact ⟨pair,rest_read⟩
      · rintro ⟨pair,rest_read⟩
        rw [pair,rest_read]
        rfl

theorem toLower_hexDigit : ∀ n < 16, (hexDigit n).toLower = hexDigit n := by decide

theorem mem_hexEncode (bytes : List UInt8) (c : Char) (member : c ∈ hexEncode bytes) : ∃ n < 16, c = hexDigit n := by
  obtain ⟨byte,_,inside⟩ := List.mem_flatMap.mp member
  have size := byte.toNat_lt
  rcases List.mem_pair.mp inside with same | same
  · exact ⟨_,by omega,same⟩
  · exact ⟨_,by omega,same⟩

theorem plus_of_encodes (text : List Char) (bytes : List UInt8) (encodes : Encodes text bytes) : '+' ∉ text := by
  intro member
  have inside : '+' ∈ hexEncode bytes := by
    rw [← encodes]
    exact List.mem_map.mpr ⟨'+',member,rfl⟩
  obtain ⟨n,small,same⟩ := mem_hexEncode bytes '+' inside
  exact Server.Webhook.hexDigit_ne_plus n small same.symm

/-- The text that the code writes is the one that is read with nothing stray in it. -/
theorem lowercase_iff (text : List Char) (bytes : List UInt8) :
    text = hexEncode bytes ↔ hexDecode text = some bytes ∧ ¬Stray text := by
  constructor
  · rintro rfl
    refine ⟨Server.Webhook.hexDecode_hexEncode bytes,?_⟩
    rintro ⟨c,member,stray⟩
    obtain ⟨n,small,rfl⟩ := mem_hexEncode bytes c member
    rcases stray with plus | upper
    · exact Server.Webhook.hexDigit_ne_plus n small plus
    · exact upper (toLower_hexDigit n small)
  · rintro ⟨read,clean⟩
    have digits : '+' ∉ text := fun member => clean ⟨'+',member,.inl rfl⟩
    have same := (hexDecode_iff text bytes digits).mp read
    rw [← same]
    calc text = text.map id := (List.map_id text).symm
      _ = text.map Char.toLower := List.map_congr_left (fun c member => by
          by_contra upper
          exact clean ⟨c,member,.inr (Ne.symm upper)⟩)

section Claim
variable (sha : Sha256) (secret : String) (body : List UInt8) (signature : String)

/-- What is compared, after an optional prefix. -/
def stripped : String := (stripPrefix "sha256=" signature).getD signature

/-- The signature is checked as it should be, by both. -/
structure Checked : Prop where
  returns : verifyHmacSha256 sha secret body signature ≠ none
  exact : verifyHmacSha256 sha secret body signature = some (.ok ()) ↔
    Encodes (stripped signature).toList (hmac sha.digest 64 secret.toUTF8.toList body)
  inline : inlineAccepts sha secret body signature = true ↔ verifyHmacSha256 sha secret body signature = some (.ok ())

theorem verify_filled (filled : body.isEmpty = false) :
    verifyHmacSha256 sha secret body signature =
      match decode (stripped signature) with
      | none => none
      | some (.error _) => some (.error .invalidSignature)
      | some (.ok read) =>
        if read = hmac sha.digest 64 secret.toUTF8.toList body then some (.ok ())
        else some (.error .hmacVerificationFailed) := by
  unfold verifyHmacSha256 stripped
  simp only [filled,Bool.false_eq_true,if_false,constantTimeEq_eq,computeHmacSha256_eq,decide_eq_true_eq]

theorem verify_panics (filled : body.isEmpty = false) :
    verifyHmacSha256 sha secret body signature = none ↔ decode (stripped signature) = none := by
  rw [verify_filled sha secret body signature filled]
  cases decode (stripped signature) with
  | none => simp
  | some result =>
    cases result with
    | error _ => simp
    | ok read =>
      simp only [reduceCtorEq,iff_false]
      split <;> simp

theorem verify_ok (filled : body.isEmpty = false) :
    verifyHmacSha256 sha secret body signature = some (.ok ()) ↔
      hexDecode (stripped signature).toList = some (hmac sha.digest 64 secret.toUTF8.toList body) := by
  rw [verify_filled sha secret body signature filled,← decode_ok]
  cases decode (stripped signature) with
  | none => simp
  | some result =>
    cases result with
    | error _ => simp
    | ok read =>
      simp

/-- The text of the refusal, if any. -/
def refusal : Except WebhookError Unit → Option String
  | .ok _ => none
  | .error e => some e.text

/-- Where it does not panic, the call answers what it answers on the characters of the text. -/
theorem verify_webhook (whole : decode (stripped signature) ≠ none) :
    (verifyHmacSha256 sha secret body signature).map refusal =
      some (Server.Webhook.verifyHmacSha256 sha.digest secret body signature) := by
  unfold Server.Webhook.verifyHmacSha256
  cases filled : body.isEmpty with
  | true =>
    simp only [verifyHmacSha256,filled,if_true]
    rfl
  | false =>
    rw [verify_filled sha secret body signature filled,computeHmacSha256_eq]
    simp only [Bool.false_eq_true,if_false]
    have decoded := decode_ok (stripped signature)
    rw [show (stripPrefix "sha256=" signature).getD signature = stripped signature from rfl]
    cases read : hexDecode (stripped signature).toList with
    | none =>
      cases ended : decode (stripped signature) with
      | none => exact absurd ended whole
      | some result =>
        cases result with
        | error _ => rfl
        | ok bytes =>
          rw [decoded,read] at ended
          cases ended
    | some bytes =>
      rw [(decoded bytes).mpr read]
      by_cases same : bytes = hmac sha.digest 64 secret.toUTF8.toList body
      · simp [same,refusal]
      · simp only [if_neg same]
        rfl

theorem inline_iff : inlineAccepts sha secret body signature = true ↔
    (stripped signature).toList = hexEncode (hmac sha.digest 64 secret.toUTF8.toList body) := by
  unfold inlineAccepts stripped
  rw [decide_eq_true_iff,computeHmacSha256_eq,← String.toList_inj,String.toList_ofList]

/-- The trigger server lets a request through exactly with a signature that the comparison accepts. -/
theorem verify_inline (arrival : WebhookServer.Arrival) :
    WebhookServer.verify sha.digest secret arrival = none ↔
      ∃ text, WebhookServer.signature arrival = some text ∧ inlineAccepts sha secret arrival.body text = true := by
  unfold WebhookServer.verify inlineAccepts
  cases WebhookServer.signature arrival with
  | none => simp
  | some text => simp

/-- Both check a signature as they should exactly when no slice of it ends within a character, and
it does not spell the HMAC with a plus sign or a capital letter. -/
theorem checked_iff (byte : UInt8) :
    Checked sha secret (byte :: body) signature ↔
      ¬((stripped signature).utf8ByteSize % 2 = 0 ∧ Slips (stripped signature).toList) ∧
      ¬(hexDecode (stripped signature).toList = some (hmac sha.digest 64 secret.toUTF8.toList (byte :: body)) ∧
        Stray (stripped signature).toList) := by
  have panics := verify_panics sha secret (byte :: body) signature rfl
  have accepted := verify_ok sha secret (byte :: body) signature rfl
  have compared := inline_iff sha secret (byte :: body) signature
  rw [lowercase_iff] at compared
  constructor
  · intro checked
    refine ⟨fun slips => checked.returns (panics.mpr ((decode_none _).mpr slips)),?_⟩
    rintro ⟨read,stray⟩
    exact (compared.mp (checked.inline.mpr (accepted.mpr read))).2 stray
  · rintro ⟨whole,clean⟩
    refine ⟨fun ended => whole ((decode_none _).mp (panics.mp ended)),?_,?_⟩
    · rw [accepted]
      constructor
      · intro read
        have digits : '+' ∉ (stripped signature).toList := fun member => clean ⟨read,'+',member,.inl rfl⟩
        exact (hexDecode_iff _ _ digits).mp read
      · exact fun encodes => (hexDecode_iff _ _ (plus_of_encodes _ _ encodes)).mpr encodes
    · rw [compared,accepted]
      exact and_iff_left_of_imp (fun read stray => clean ⟨read,stray⟩)

end Claim

/-- A function that gives the same digest for every message. -/
def constantDigest (byte : UInt8) : Sha256 := ⟨fun _ => List.replicate 32 byte,fun _ => List.length_replicate⟩

def repeated (text : String) : String := String.join (List.replicate 32 text)

/-- A slice that ends within a character, a plus sign and a capital letter. -/
theorem signatures_differ :
    ¬Checked (constantDigest 0x0b) "secret" [1] "aé0" ∧
    ¬Checked (constantDigest 0x0b) "secret" [1] (repeated "+b") ∧
    ¬Checked (constantDigest 0x0b) "secret" [1] (repeated "0B") := by
  refine ⟨fun checked => checked.returns ?_,fun checked => ?_,fun checked => ?_⟩
  · rfl
  · have accepted := (verify_ok (constantDigest 0x0b) "secret" [1] (repeated "+b") rfl).mpr (by decide +kernel)
    exact plus_of_encodes _ _ (checked.exact.mp accepted) (by decide +kernel)
  · have accepted := (verify_ok (constantDigest 0x0b) "secret" [1] (repeated "0B") rfl).mpr (by decide +kernel)
    exact absurd ((inline_iff ..).mp (checked.inline.mpr accepted)) (by decide +kernel)

end ClawKernel.Runtime.Signatures
