import ClawKernel.Provider.Sse
import ClawKernel.Runtime.Signatures

/-! Power keys and their files: a key is the SHA-256 of a text, its file the hexadecimal digits of
that, which are read back by slices of two bytes.
-/
namespace ClawKernel.Pal.Security
open Lib.Hmac Provider.Sse
open Runtime.Signatures
open Server.Webhook (hexValue hexPair hexDecode hexDigit hexEncode)

inductive SecurityError where
  | hashError (text : String)
  deriving DecidableEq, Repr

@[ext] structure PowerKey where
  verificationHash : List UInt8
  size : verificationHash.length = 32

def PowerKey.new (sha : Sha256) (key : String) : PowerKey :=
  ⟨sha.digest key.toUTF8.toList,sha.length_digest _⟩

def PowerKey.verify (sha : Sha256) (k : PowerKey) (provided : String) : Bool :=
  constantTimeEq k.verificationHash (sha.digest provided.toUTF8.toList)

def hexToBytes (hex : List Char) : Ended String (List UInt8) :=
  if byteSize hex % 2 ≠ 0 then some (.error "Odd number of hex digits")
  else (decodePairs hex).map (fun read =>
    read.mapError (fun _ => "Invalid hex digit: invalid digit found in string"))

/-- A file is a text where its bytes are UTF-8. -/
def readToString (content : ByteArray) : Except String String :=
  match String.fromUTF8? content with
  | some text => .ok text
  | none => .error "stream did not contain valid UTF-8"

/-- What a file of that content is loaded as. -/
def loadFromFile (content : ByteArray) : Ended SecurityError PowerKey :=
  match readToString content with
  | .error e => some (.error (.hashError ("Failed to read key file: " ++ e)))
  | .ok text =>
    let hashStr := trim text.toList
    if hashStr.isEmpty then some (.error (.hashError "Empty key file"))
    else
      match hexToBytes hashStr with
      | none => none
      | some (.error e) => some (.error (.hashError ("Invalid key file format: " ++ e)))
      | some (.ok bytes) =>
        if size : bytes.length = 32 then some (.ok ⟨bytes,size⟩)
        else some (.error (.hashError
          ("Invalid hash length: expected 32 bytes, got " ++ toString bytes.length)))

/-- The content that is written. -/
def saveToFile (k : PowerKey) : ByteArray := (String.ofList (hexEncode k.verificationHash)).toUTF8

theorem verify_iff (sha : Sha256) (k : PowerKey) (provided : String) :
    k.verify sha provided = true ↔ k.verificationHash = sha.digest provided.toUTF8.toList := by
  rw [PowerKey.verify,constantTimeEq_eq,decide_eq_true_iff]

/-- A key verifies the text it is made of. -/
theorem verify_new (sha : Sha256) (key : String) : (PowerKey.new sha key).verify sha key = true :=
  (verify_iff sha _ key).mpr rfl

/-! What `hex_to_bytes` reads, and where it panics. -/

theorem hexToBytes_ok (hex : List Char) (bytes : List UInt8) :
    hexToBytes hex = some (.ok bytes) ↔ hexDecode hex = some bytes := by
  unfold hexToBytes
  split
  · rename_i odd
    exact iff_of_false (by simp) (fun read => odd (byteSize_of_decoded hex bytes read))
  · rw [← decodePairs_ok]
    cases decodePairs hex with
    | none => simp
    | some read => cases read <;> simp [Except.mapError]

theorem hexToBytes_none (hex : List Char) : hexToBytes hex = none ↔ byteSize hex % 2 = 0 ∧ Slips hex := by
  unfold hexToBytes
  split
  · rename_i odd
    exact iff_of_false (by simp) (fun both => odd both.1)
  · rename_i even
    rw [Option.map_eq_none_iff,decodePairs_none hex (by omega),and_iff_right (by omega)]

/-! What a file is loaded as. -/

/-- The trimmed text of a file, if it is a text. -/
def Reads (content : ByteArray) (hex : List Char) : Prop :=
  ∃ text, readToString content = .ok text ∧ trim text.toList = hex

theorem load_reads (content : ByteArray) (hex : List Char) (reads : Reads content hex) :
    (loadFromFile content = none ↔ byteSize hex % 2 = 0 ∧ Slips hex) ∧
      ∀ k, loadFromFile content = some (.ok k) ↔ hexDecode hex = some k.verificationHash := by
  obtain ⟨text,read,rfl⟩ := reads
  unfold loadFromFile
  rw [read,← hexToBytes_none]
  simp only [← hexToBytes_ok]
  generalize trim text.toList = hex
  cases hex with
  | nil =>
    refine ⟨by simp [hexToBytes,byteSize,decodePairs],fun k => ?_⟩
    refine iff_of_false (by simp) (fun decoded => ?_)
    have size := k.size
    rw [hexToBytes_ok,hexDecode,Option.some_inj] at decoded
    simp [← decoded] at size
  | cons c rest =>
    simp only [List.isEmpty_cons,Bool.false_eq_true,if_false]
    cases hexToBytes (c :: rest) with
    | none => simp
    | some result =>
      cases result with
      | error e => simp
      | ok bytes =>
        by_cases size : bytes.length = 32
        · simp [size,PowerKey.ext_iff]
        · refine ⟨by simp [size],fun k => ?_⟩
          refine iff_of_false (by simp [size]) (fun same => size ?_)
          obtain rfl := Except.ok.inj (Option.some.inj same)
          exact k.size

theorem load_unread (content : ByteArray) (e : String) (unread : readToString content = .error e) :
    loadFromFile content = some (.error (.hashError ("Failed to read key file: " ++ e))) := by
  rw [loadFromFile,unread]

theorem readToString_text (text : String) : readToString text.toUTF8 = .ok text := by
  have valid : text.toUTF8.IsValidUTF8 := text.isValidUTF8
  unfold readToString String.fromUTF8?
  rw [dif_pos valid]
  rfl

theorem reads_same (content : ByteArray) (hex other : List Char) (one : Reads content hex)
    (two : Reads content other) : hex = other := by
  obtain ⟨text,read,rfl⟩ := one
  obtain ⟨again,same,rfl⟩ := two
  rw [Except.ok.inj (read.symm.trans same)]

/-! What is written is read back. -/

theorem hexDigit_dark : ∀ n < 16, isWhitespace (hexDigit n) = false := by decide

theorem trim_hexEncode (bytes : List UInt8) : trim (hexEncode bytes) = hexEncode bytes := by
  have dark (c : Char) (member : c ∈ hexEncode bytes) : isWhitespace c = false := by
    obtain ⟨n,small,rfl⟩ := mem_hexEncode bytes c member
    exact hexDigit_dark n small
  exact trim_tight _ (fun c first => dark c (List.mem_of_mem_head? first))
    (fun c last => dark c (List.mem_of_mem_getLast? last))

theorem load_save (k : PowerKey) : loadFromFile (saveToFile k) = some (.ok k) := by
  have reads : Reads (saveToFile k) (hexEncode k.verificationHash) := by
    refine ⟨_,readToString_text _,?_⟩
    rw [String.toList_ofList,trim_hexEncode]
  exact ((load_reads _ _ reads).2 k).mpr (Server.Webhook.hexDecode_hexEncode k.verificationHash)

/-! Texts that can be read, and those of digits alone. -/

def HexDigit (c : Char) : Prop := (hexValue c).isSome

/-- Pairs of a digit after a digit or a plus sign. -/
inductive Pairs : List Char → Prop where
  | nil : Pairs []
  | cons (c d : Char) (rest : List Char) (first : c = '+' ∨ HexDigit c) (second : HexDigit d) (later : Pairs rest) :
      Pairs (c :: d :: rest)

theorem hexPair_isSome (c d : Char) : (hexPair c d).isSome ↔ (c = '+' ∨ HexDigit c) ∧ HexDigit d := by
  unfold hexPair HexDigit
  split_ifs with plus
  · simp [plus]
  · cases hexValue c <;> simp [plus]

theorem pairs_iff (hex : List Char) : Pairs hex ↔ (hexDecode hex).isSome := by
  induction hex using Server.Webhook.hexDecode.induct with
  | case1 => exact iff_of_true .nil rfl
  | case2 c =>
    refine iff_of_false (fun pairs => ?_) (by simp [hexDecode])
    cases pairs
  | case3 c d rest ih =>
    have whole : (hexDecode (c :: d :: rest)).isSome ↔ (hexPair c d).isSome ∧ (hexDecode rest).isSome := by
      rw [hexDecode]
      cases hexPair c d <;> simp
    rw [whole,hexPair_isSome,← ih]
    constructor
    · rintro (_ | ⟨_,_,_,first,second,later⟩)
      exact ⟨⟨first,second⟩,later⟩
    · rintro ⟨⟨first,second⟩,later⟩
      exact .cons c d rest first second later

theorem length_of_decoded (hex : List Char) (bytes : List UInt8) (read : hexDecode hex = some bytes) :
    hex.length = 2 * bytes.length := by
  induction hex using Server.Webhook.hexDecode.induct generalizing bytes with
  | case1 =>
    cases read
    rfl
  | case2 c => cases read
  | case3 c d rest ih =>
    rw [hexDecode] at read
    obtain ⟨byte,_,tail⟩ := Option.bind_eq_some_iff.mp read
    obtain ⟨later,rest_read,rfl⟩ := Option.map_eq_some_iff.mp tail
    rw [List.length_cons,List.length_cons,List.length_cons,ih later rest_read]
    omega

/-- 64 hexadecimal digits, in either case. -/
def Digits (hex : List Char) : Prop := hex.length = 64 ∧ ∀ c ∈ hex, HexDigit c

theorem pairs_of_digits (hex : List Char) (even : hex.length % 2 = 0) (digits : ∀ c ∈ hex, HexDigit c) :
    Pairs hex := by
  induction hex using Server.Webhook.hexDecode.induct with
  | case1 => exact .nil
  | case2 c => cases even
  | case3 c d rest ih =>
    simp only [List.length_cons] at even
    rw [List.forall_mem_cons,List.forall_mem_cons] at digits
    exact .cons c d rest (.inr digits.1) digits.2.1 (ih (by omega) digits.2.2)

theorem digits_of_pairs (hex : List Char) (pairs : Pairs hex) (plain : '+' ∉ hex) : ∀ c ∈ hex, HexDigit c := by
  induction pairs with
  | nil => exact List.forall_mem_nil _
  | cons c d rest first second later ih =>
    simp only [List.mem_cons,not_or] at plain
    refine List.forall_mem_cons.mpr ⟨first.resolve_left (fun plus => plain.1 plus.symm),?_⟩
    exact List.forall_mem_cons.mpr ⟨second,ih plain.2.2⟩

section Claim
variable (content : ByteArray)

/-- A file is loaded as it should be. -/
structure LoadsDigits : Prop where
  returns : loadFromFile content ≠ none
  succeeds : (∃ k, loadFromFile content = some (.ok k)) ↔ ∃ hex, Reads content hex ∧ Digits hex
  denotes : ∀ k hex, loadFromFile content = some (.ok k) → Reads content hex → Encodes hex k.verificationHash

/-- In the trimmed text no slice ends within a character after pairs that can be read, or the text has an
odd number of bytes; and where it is 32 pairs that can be read there is no plus sign in it. -/
def Regular : Prop :=
  ∀ hex, Reads content hex → ¬(byteSize hex % 2 = 0 ∧ Slips hex) ∧ (hex.length = 64 → Pairs hex → '+' ∉ hex)

theorem plus_not_digit : ¬HexDigit '+' := by
  unfold HexDigit
  decide

theorem load_isOk (hex : List Char) (reads : Reads content hex) :
    (∃ k, loadFromFile content = some (.ok k)) ↔ hex.length = 64 ∧ Pairs hex := by
  rw [pairs_iff,Option.isSome_iff_exists]
  constructor
  · rintro ⟨k,loaded⟩
    have read := ((load_reads content hex reads).2 k).mp loaded
    exact ⟨(length_of_decoded hex _ read).trans (by rw [k.size]),_,read⟩
  · rintro ⟨size,bytes,read⟩
    have same := length_of_decoded hex bytes read
    exact ⟨⟨bytes,by omega⟩,((load_reads content hex reads).2 _).mpr read⟩

theorem loadsDigits_iff : LoadsDigits content ↔ Regular content := by
  cases read : readToString content with
  | error e =>
    have unread (hex : List Char) : ¬Reads content hex := by
      rintro ⟨text,same,_⟩
      rw [read] at same
      cases same
    refine iff_of_true ⟨?_,?_,?_⟩ (fun hex reads => (unread hex reads).elim)
    · simp [load_unread content e read]
    · simp [load_unread content e read,unread]
    · exact fun k hex _ reads => (unread hex reads).elim
  | ok text =>
    have reads : Reads content (trim text.toList) := ⟨text,read,rfl⟩
    generalize trim text.toList = hex at reads
    obtain ⟨panics,loads⟩ := load_reads content hex reads
    constructor
    · rintro ⟨returns,succeeds,_⟩ other again
      obtain rfl := reads_same content hex other reads again
      refine ⟨fun slips => returns (panics.mpr slips),fun size pairs plus => ?_⟩
      obtain ⟨other,again,digits⟩ := succeeds.mp ((load_isOk content hex reads).mpr ⟨size,pairs⟩)
      obtain rfl := reads_same content hex other reads again
      exact plus_not_digit (digits.2 '+' plus)
    · intro regular
      obtain ⟨whole,plain⟩ := regular hex reads
      refine ⟨fun none => whole (panics.mp none),?_,fun k other loaded again => ?_⟩
      · rw [load_isOk content hex reads]
        constructor
        · rintro ⟨size,pairs⟩
          exact ⟨hex,reads,size,digits_of_pairs hex pairs (plain size pairs)⟩
        · rintro ⟨other,again,digits⟩
          obtain rfl := reads_same content hex other reads again
          exact ⟨digits.1,pairs_of_digits hex (by rw [digits.1]) digits.2⟩
      · obtain rfl := reads_same content hex other reads again
        obtain ⟨size,pairs⟩ := (load_isOk content hex reads).mp ⟨k,loaded⟩
        exact (hexDecode_iff hex _ (plain size pairs)).mp ((loads k).mp loaded)

end Claim

/-- A saved key is loaded as one that verifies the same texts; a file is loaded as it should be unless a slice
ends within a character or there is a plus sign. -/
theorem powerKeys_survive (sha : Sha256) :
    (∀ k, ∃ loaded, loadFromFile (saveToFile k) = some (.ok loaded) ∧
      ∀ provided, loaded.verify sha provided = k.verify sha provided) ∧
    ∀ content, LoadsDigits content ↔ Regular content :=
  ⟨fun k => ⟨k,load_save k,fun _ => rfl⟩,loadsDigits_iff⟩

/-- A slice that ends within a character, and 32 pairs that are not digits. -/
theorem keys_misread :
    ¬LoadsDigits "aé0".toUTF8 ∧ ¬LoadsDigits (repeated "+f").toUTF8 := by
  constructor
  · intro loads
    exact loads.returns (by rfl)
  · intro loads
    have regular := (loadsDigits_iff _).mp loads
    have tight : trim (repeated "+f").toList = (repeated "+f").toList := by decide +kernel
    have reads : Reads (repeated "+f").toUTF8 (repeated "+f").toList := ⟨_,readToString_text _,tight⟩
    refine (regular _ reads).2 (by decide +kernel) ((pairs_iff _).mpr ?_) (by decide +kernel)
    decide +kernel

end ClawKernel.Pal.Security
