import ClawKernel.Lib.Pieces
import ClawKernel.Provider.Types
import Mathlib.Data.List.DropRight

/-! Streamed responses: `parse_sse_stream` and `stream_request` decode every chunk
of the body on its own, line by line, for the OpenAI and Anthropic formats.
-/
namespace ClawKernel.Provider.Sse
open Lib.Pieces Lib.Utf8 Provider.Types

abbrev Bytes := List UInt8

def isWhitespace (c : Char) : Bool :=
  let n := c.toNat
  (9 ≤ n && n ≤ 13) || n = 0x20 || n = 0x85 || n = 0xA0 || n = 0x1680 || (0x2000 ≤ n && n ≤ 0x200A) ||
    n = 0x2028 || n = 0x2029 || n = 0x202F || n = 0x205F || n = 0x3000

def trim (text : List Char) : List Char :=
  (text.dropWhile isWhitespace).rdropWhile isWhitespace

def stripCr (line : List Char) : List Char :=
  if line.getLast? = some '\r' then line.dropLast else line

/-- `str::lines`: a terminated line loses its `\r`, an unterminated last line
counts when it is not empty. -/
def lines (text : List Char) : List (List Char) :=
  (pieces newline text).dropLast.map stripCr ++
    (if lastPiece newline text = [] then [] else [lastPiece newline text])

def dataPrefix : List Char := "data: ".toList

def parseSseLine (line : List Char) : Option (List Char) :=
  if dataPrefix.isPrefixOf (trim line) then some ((trim line).drop dataPrefix.length) else none

def payload (line : List Char) : List Char :=
  match parseSseLine line with
  | some data => trim data
  | none => line

structure OpenAIStreamChoice where
  content : Option String
  finishReason : Option String
  deriving DecidableEq, Repr

structure OpenAIStreamChunk where
  choices : List OpenAIStreamChoice
  deriving DecidableEq, Repr

def openAIFinishReason (reason : String) : FinishReason :=
  if reason = "stop" then .stop
  else if reason = "length" then .length
  else if reason = "tool_calls" then .toolCalls
  else if reason = "content_filter" then .contentFilter
  else .other "unknown"

def openAIParseStreamChunk (fromStr : String → Except String OpenAIStreamChunk) (chunk : Bytes) :
    Except String (Option Delta) :=
  let line := payload (trim (lossy chunk))
  if line.isEmpty || line = "[DONE]".toList then .ok none
  else
    match fromStr (String.ofList line) with
    | .error message => .error ("Invalid format: " ++ message)
    | .ok parsed =>
      match parsed.choices with
      | [] => .ok none
      | choice :: _ => .ok (some ⟨choice.content,none,choice.finishReason.map openAIFinishReason,none⟩)

inductive AnthropicStreamChunk where
  | contentBlockDelta (deltaType text : String)
  | messageDelta (stopReason : Option String) (outputTokens : Option Nat)
  | messageStop
  | other
  deriving DecidableEq, Repr

def anthropicFinishReason (reason : String) : FinishReason :=
  if reason = "end_turn" then .stop
  else if reason = "max_tokens" then .length
  else if reason = "tool_use" then .toolCalls
  else .other "unknown"

def anthropicParseStreamChunk (fromStr : String → Except String AnthropicStreamChunk) (chunk : Bytes) :
    Except String (Option Delta) :=
  let text := trim (lossy chunk)
  if "event:".toList.isPrefixOf text then .ok none
  else
    let line := payload text
    if line.isEmpty then .ok none
    else
      match fromStr (String.ofList line) with
      | .error message => .error ("Invalid format: " ++ message)
      | .ok (.contentBlockDelta deltaType text) =>
        if deltaType = "text_delta" then .ok (some ⟨some text,none,none,none⟩) else .ok none
      | .ok (.messageDelta stopReason outputTokens) =>
        .ok (some ⟨none,none,stopReason.map anthropicFinishReason,outputTokens.map (fun n => ⟨0,n,n⟩)⟩)
      | .ok .messageStop => .ok none
      | .ok .other => .ok none

/-- The two formats, with serde_json's reading of one chunk. -/
inductive Format where
  | openAI (fromStr : String → Except String OpenAIStreamChunk)
  | anthropic (fromStr : String → Except String AnthropicStreamChunk)

def Format.parseStreamChunk : Format → Bytes → Except String (Option Delta)
  | .openAI fromStr => openAIParseStreamChunk fromStr
  | .anthropic fromStr => anthropicParseStreamChunk fromStr

abbrev Item := Except ProviderError Delta

def parseLine (format : Format) (wrap : String → ProviderError) (line : List Char) : Option Item :=
  match format.parseStreamChunk (encode line) with
  | .ok (some delta) => some (.ok delta)
  | .ok none => none
  | .error message => some (.error (wrap message))

def parseSseStream (format : Format) (byteStream : List (Except ProviderError Bytes)) : List Item :=
  byteStream.flatMap (fun chunk =>
    match chunk with
    | .error error => [.error error]
    | .ok bytes => (((lines (lossy bytes)).map trim).filter (fun line => !line.isEmpty)).filterMap
        (parseLine format .other))

def streamRequest (format : Format) (byteStream : List (Except ProviderError Bytes)) : List Item :=
  byteStream.flatMap (fun chunk =>
    match chunk with
    | .error error => [.error error]
    | .ok bytes => (lines (lossy bytes)).filterMap (fun line =>
        if (trim line).isEmpty then none else parseLine format .serialization (trim line)))

/-- The two readers differ in how they name a line that does not parse. -/
inductive Reader where
  | parseSseStream
  | streamRequest
  deriving DecidableEq, Repr

def Reader.deltas : Reader → Format → List (Except ProviderError Bytes) → List Item
  | .parseSseStream => Sse.parseSseStream
  | .streamRequest => Sse.streamRequest

def Reader.wrap : Reader → String → ProviderError
  | .parseSseStream => .other
  | .streamRequest => .serialization

def lineItems (format : Format) (wrap : String → ProviderError) (line : List Char) : List Item :=
  if (trim line).isEmpty then [] else (parseLine format wrap (trim line)).toList

def blank (text : List Char) : Bool :=
  text.all isWhitespace

private theorem rdropWhile_blank (text tail : List Char) (none : blank tail = true) :
    (text ++ tail).rdropWhile isWhitespace = text.rdropWhile isWhitespace := by
  have all : ∀ c ∈ tail.reverse, isWhitespace c = true := by
    simpa [blank,List.all_eq_true] using none
  rw [List.rdropWhile,List.reverse_append,List.dropWhile_append_of_pos all,List.rdropWhile]

private theorem dropWhile_blank (text : List Char) (none : blank text = true) :
    text.dropWhile isWhitespace = [] := by
  rw [List.dropWhile_eq_nil_iff]
  simpa [blank,List.all_eq_true] using none

theorem trim_blank (text : List Char) (none : blank text = true) : trim text = [] := by
  simp [trim,dropWhile_blank text none]

/-- A text that neither begins nor ends with a blank. -/
theorem trim_tight (text : List Char) (opens : ∀ c, text.head? = some c → isWhitespace c = false)
    (closes : ∀ c, text.getLast? = some c → isWhitespace c = false) : trim text = text := by
  have keeps (l : List Char) (dark : ∀ c, l.head? = some c → isWhitespace c = false) : l.dropWhile isWhitespace = l := by
    cases l with
    | nil => rfl
    | cons c rest => exact List.dropWhile_cons_of_neg (by simp [dark c rfl])
  have ends : ∀ c, text.reverse.head? = some c → isWhitespace c = false := by
    rwa [List.head?_reverse]
  rw [trim,keeps text opens,List.rdropWhile,keeps text.reverse ends,List.reverse_reverse]

theorem trim_append_left (text tail : List Char) (none : blank text = true) : trim (text ++ tail) = trim tail := by
  rw [trim,List.dropWhile_append,dropWhile_blank text none]
  rfl

theorem trim_append_right (text tail : List Char) (none : blank tail = true) : trim (text ++ tail) = trim text := by
  rw [trim,List.dropWhile_append]
  split
  · rename_i gone
    rw [List.isEmpty_iff] at gone
    rw [dropWhile_blank tail none,trim,gone]
  · rw [rdropWhile_blank _ _ none,trim]

theorem trim_stripCr (line : List Char) : trim (stripCr line) = trim line := by
  unfold stripCr
  split
  · rename_i ends
    obtain ⟨front,rfl⟩ := List.getLast?_eq_some_iff.mp ends
    rw [List.dropLast_concat,trim_append_right front ['\r'] (by decide)]
  · rfl

private theorem lineItems_nil (format : Format) (wrap : String → ProviderError) :
    lineItems format wrap [] = [] := rfl

private theorem lineItems_stripCr (format : Format) (wrap : String → ProviderError) (line : List Char) :
    lineItems format wrap (stripCr line) = lineItems format wrap line := by
  simp only [lineItems,trim_stripCr]

private theorem lines_items (format : Format) (wrap : String → ProviderError) (text : List Char) :
    (lines text).flatMap (lineItems format wrap) = (pieces newline text).flatMap (lineItems format wrap) := by
  have parts := pieces_eq_last newline text
  have last : (if lastPiece newline text = [] then [] else [lastPiece newline text]).flatMap (lineItems format wrap) =
      lineItems format wrap (lastPiece newline text) := by
    split
    · rename_i empty
      rw [empty,lineItems_nil]
      rfl
    · simp
  rw [lines,List.flatMap_append,List.flatMap_map,last]
  simp only [lineItems_stripCr]
  conv_rhs => rw [parts]
  simp

private theorem trimmed_items (format : Format) (wrap : String → ProviderError) (text : List (List Char)) :
    ((text.map trim).filter (fun line => !line.isEmpty)).filterMap (parseLine format wrap) =
      text.flatMap (lineItems format wrap) := by
  induction text with
  | nil => rfl
  | cons line rest ih =>
    cases empty : (trim line).isEmpty with
    | true => simpa [lineItems,empty] using ih
    | false => cases item : parseLine format wrap (trim line) <;> simp [lineItems,empty,item,ih]

private theorem kept_items (format : Format) (wrap : String → ProviderError) (text : List (List Char)) :
    text.filterMap (fun line => if (trim line).isEmpty then none else parseLine format wrap (trim line)) =
      text.flatMap (lineItems format wrap) := by
  rw [List.filterMap_eq_flatMap_toList]
  congr 1
  funext line
  unfold lineItems
  split <;> rfl

def chunkItems (reader : Reader) (format : Format) (bytes : Bytes) : List Item :=
  (pieces newline (lossy bytes)).flatMap (lineItems format reader.wrap)

theorem deltas_chunks (reader : Reader) (format : Format) (chunks : List Bytes) :
    reader.deltas format (chunks.map .ok) = chunks.flatMap (chunkItems reader format) := by
  cases reader with
  | parseSseStream =>
    simp only [Reader.deltas,parseSseStream,List.flatMap_map,trimmed_items,lines_items]
    rfl
  | streamRequest =>
    simp only [Reader.deltas,streamRequest,List.flatMap_map,kept_items,lines_items]
    rfl

/-- On the line where two chunks meet, one side of the cut is blank. -/
def BlankAround (before after : Bytes) : Prop :=
  blank (lastPiece newline (lossy before)) = true ∨ blank (firstPiece newline (lossy after)) = true

def CutsBesideText : List Bytes → Prop
  | [] => True
  | chunk :: rest => BlankAround chunk rest.flatten ∧ CutsBesideText rest

private theorem replacement_text : newline replacement = false ∧ isWhitespace replacement = false := by
  decide

private theorem not_replacement (text : List Char) (none : blank text = true) (c : Char)
    (found : newline c = true ∨ c ∈ text) : c ≠ replacement := by
  rintro rfl
  rcases found with sep | member
  · simp [replacement_text.1] at sep
  · have white := List.all_eq_true.mp none _ member
    simp [replacement_text.2] at white

theorem lossy_append_beside (before after : Bytes) (beside : BlankAround before after) :
    lossy (before ++ after) = lossy before ++ lossy after := by
  rcases beside with left | right
  · apply lossy_append_kept
    intro last
    exact not_replacement _ left _ (last_mem_lastPiece newline _ _ last) rfl
  · apply lossy_append_leads
    apply leads_of_head
    intro first
    exact not_replacement _ right _ (head_mem_firstPiece newline _ _ first) rfl

theorem chunkItems_append (reader : Reader) (format : Format) (before after : Bytes)
    (beside : BlankAround before after) :
    chunkItems reader format (before ++ after) =
      chunkItems reader format before ++ chunkItems reader format after := by
  unfold chunkItems
  rw [lossy_append_beside before after beside]
  apply flatMap_pieces_append
  rcases beside with left | right
  · simp [lineItems,trim_append_left _ _ left,trim_blank _ left]
  · simp [lineItems,trim_append_right _ _ right,trim_blank _ right]

theorem chunks_flatten (reader : Reader) (format : Format) (chunks : List Bytes) (beside : CutsBesideText chunks) :
    chunks.flatMap (chunkItems reader format) = chunkItems reader format chunks.flatten := by
  induction chunks with
  | nil => rfl
  | cons chunk rest ih =>
    obtain ⟨now,later⟩ := beside
    rw [List.flatMap_cons,List.flatten_cons,chunkItems_append reader format chunk rest.flatten now,ih later]

def blankByte (byte : UInt8) : Bool :=
  (9 ≤ byte && byte ≤ 13) || byte = 32

def inked (line : Bytes) : Nat :=
  line.countP (fun byte => !blankByte byte)

def charOf (byte : UInt8) : Char :=
  if byte < 0x80 then Char.ofNat byte.toNat else replacement

private theorem lossy_single_nat : ∀ n < 256, lossy [UInt8.ofNat n] = [charOf (UInt8.ofNat n)] ∧
    lossy (encode [charOf (UInt8.ofNat n)]) = [charOf (UInt8.ofNat n)] ∧
    isWhitespace (charOf (UInt8.ofNat n)) = blankByte (UInt8.ofNat n) := by
  decide +kernel

private theorem lossy_single (byte : UInt8) : lossy [byte] = [charOf byte] ∧
    lossy (encode [charOf byte]) = [charOf byte] ∧ isWhitespace (charOf byte) = blankByte byte := by
  simpa using lossy_single_nat byte.toNat byte.toNat_lt

/-- serde_json reads no chunk from a text of one character. -/
def Format.RejectsSingle : Format → Prop
  | .openAI fromStr => ∀ c, ∃ message, fromStr (String.singleton c) = .error message
  | .anthropic fromStr => ∀ c, ∃ message, fromStr (String.singleton c) = .error message

private theorem trim_single (c : Char) (dark : isWhitespace c = false) : trim [c] = [c] := by
  simp [trim,dark,List.rdropWhile]

private theorem payload_single (c : Char) (dark : isWhitespace c = false) : payload [c] = [c] := by
  have longer : ¬dataPrefix.isPrefixOf [c] := by
    intro starts
    have fits := (List.isPrefixOf_iff_prefix.mp starts).length_le
    rw [List.length_singleton] at fits
    exact absurd fits (by decide)
  have none : parseSseLine [c] = none := by
    rw [parseSseLine,trim_single c dark,if_neg longer]
  simp only [payload,none]

private theorem parseStreamChunk_single (format : Format) (rejects : format.RejectsSingle) (c : Char)
    (decoded : lossy (encode [c]) = [c]) (dark : isWhitespace c = false) :
    ∃ message, format.parseStreamChunk (encode [c]) = .error message := by
  cases format with
  | openAI fromStr =>
    obtain ⟨message,failed⟩ := rejects c
    exact ⟨"Invalid format: " ++ message,by
      simp [Format.parseStreamChunk,openAIParseStreamChunk,decoded,trim_single c dark,payload_single c dark,failed]⟩
  | anthropic fromStr =>
    obtain ⟨message,failed⟩ := rejects c
    exact ⟨"Invalid format: " ++ message,by
      simp [Format.parseStreamChunk,anthropicParseStreamChunk,decoded,trim_single c dark,payload_single c dark,failed,
        List.isPrefixOf]⟩

private theorem chunkItems_single (reader : Reader) (format : Format) (rejects : format.RejectsSingle) (byte : UInt8) :
    (chunkItems reader format [byte]).length = if blankByte byte then 0 else 1 := by
  obtain ⟨text,decoded,white⟩ := lossy_single byte
  unfold chunkItems
  rw [text]
  cases empty : blankByte byte with
  | true =>
    rw [empty] at white
    have parts : ∀ line ∈ pieces newline [charOf byte], lineItems format reader.wrap line = [] := by
      intro line member
      have blanks : blank line = true := by
        by_cases feed : newline (charOf byte) = true <;> simp [pieces,feed] at member
        · simp [member,blank]
        · simp [member,blank,white]
      simp [lineItems,trim_blank line blanks]
    simp [List.flatMap_eq_nil_iff.mpr parts]
  | false =>
    rw [empty] at white
    have feed : newline (charOf byte) = false := by
      by_contra feed
      simp only [newline,Bool.not_eq_false,decide_eq_true_eq] at feed
      rw [feed] at white
      cases white
    obtain ⟨message,failed⟩ := parseStreamChunk_single format rejects (charOf byte) decoded white
    simp [pieces,feed,lineItems,trim_single _ white,parseLine,failed]

private theorem lossy_blank (line : Bytes) (none : inked line = 0) : blank (lossy line) = true := by
  induction line with
  | nil => rfl
  | cons byte rest ih =>
    have parts := none
    simp only [inked,List.countP_cons] at parts
    have white : blankByte byte = true := by
      by_contra dark
      simp [dark] at parts
    have ascii : byte < 0x80 := by
      simp only [blankByte,Bool.or_eq_true,Bool.and_eq_true,decide_eq_true_eq] at white
      rcases white with ⟨_,high⟩ | rfl
      · exact UInt8.lt_of_le_of_lt high (by decide)
      · decide
    have space : isWhitespace (Char.ofNat byte.toNat) = true := by
      have same := (lossy_single byte).2.2
      rwa [charOf,if_pos ascii,white] at same
    have later := ih (by simp only [inked]; omega)
    rw [lossy_ascii byte rest ascii]
    simp only [blank,List.all_cons,space,Bool.true_and]
    exact later

private theorem lineItems_le (format : Format) (wrap : String → ProviderError) (line : Bytes) :
    (lineItems format wrap (lossy line)).length ≤ min 1 (inked line) := by
  by_cases none : inked line = 0
  · simp [lineItems,trim_blank _ (lossy_blank line none)]
  · have one : (lineItems format wrap (lossy line)).length ≤ 1 := by
      unfold lineItems
      split
      · simp
      · cases parseLine format wrap (trim (lossy line)) <;> simp
    omega

private theorem chunkItems_lines (reader : Reader) (format : Format) (body : Bytes) :
    (chunkItems reader format body).length ≤ ((pieces lineFeed body).map (fun line => min 1 (inked line))).sum := by
  unfold chunkItems
  rw [pieces_lossy]
  generalize pieces lineFeed body = text
  induction text with
  | nil => simp
  | cons line rest ih =>
    have one := lineItems_le format reader.wrap line
    simp only [List.map_cons,List.flatMap_cons,List.length_append,List.sum_cons]
    omega

private theorem singles_length (reader : Reader) (format : Format) (rejects : format.RejectsSingle) (body : Bytes) :
    ((body.map (fun byte => [byte])).flatMap (chunkItems reader format)).length = inked body := by
  induction body with
  | nil => rfl
  | cons byte rest ih =>
    rw [List.map_cons,List.flatMap_cons,List.length_append,chunkItems_single reader format rejects,ih]
    cases empty : blankByte byte with
    | false => simp [inked,empty]; omega
    | true => simp [inked,empty]

private theorem min_sum_bound (counts : List Nat) (tight : counts.sum ≤ (counts.map (fun n => min 1 n)).sum) :
    ∀ n ∈ counts, n ≤ 1 := by
  have never : ∀ l : List Nat, (l.map (fun n => min 1 n)).sum ≤ l.sum := by
    intro l
    induction l with
    | nil => simp
    | cons m l ih => simp only [List.map_cons,List.sum_cons]; omega
  induction counts with
  | nil => simp
  | cons m rest ih =>
    have later := never rest
    simp only [List.map_cons,List.sum_cons] at tight
    intro n member
    rcases List.mem_cons.mp member with rfl | inside
    · omega
    · exact ih (by omega) n inside

private theorem feed_blank (byte : UInt8) (feed : lineFeed byte = true) : (!blankByte byte) = false := by
  simp only [lineFeed,decide_eq_true_eq] at feed
  subst feed
  rfl

private theorem lastPiece_lossy (bytes : Bytes) : lastPiece newline (lossy bytes) = lossy (lastPiece lineFeed bytes) := by
  rw [lastPiece,pieces_lossy,pieces_eq_last lineFeed bytes]
  simp

private theorem firstPiece_lossy (bytes : Bytes) :
    firstPiece newline (lossy bytes) = lossy (firstPiece lineFeed bytes) := by
  rw [firstPiece,pieces_lossy,pieces_eq_first lineFeed bytes]
  simp

private theorem cutsBesideText_of_sparse (chunks : List Bytes)
    (sparse : ∀ line ∈ pieces lineFeed chunks.flatten, inked line ≤ 1) : CutsBesideText chunks := by
  induction chunks with
  | nil => trivial
  | cons chunk rest ih =>
    have parts := pieces_append lineFeed chunk rest.flatten
    rw [List.flatten_cons,parts] at sparse
    have meeting := sparse (lastPiece lineFeed chunk ++ firstPiece lineFeed rest.flatten) (by simp)
    simp only [inked,List.countP_append] at meeting
    refine ⟨?_,ih ?_⟩
    · rw [BlankAround,lastPiece_lossy,firstPiece_lossy]
      by_cases left : inked (lastPiece lineFeed chunk) = 0
      · exact .inl (lossy_blank _ left)
      · exact .inr (lossy_blank _ (by unfold inked at left ⊢; omega))
    · intro line member
      rw [pieces_eq_first lineFeed rest.flatten] at member
      rcases List.mem_cons.mp member with rfl | later
      · unfold inked
        omega
      · exact sparse line (by simp [later])

private theorem singleton_ne (text : String) (c : Char) (long : text.length ≠ 1) : String.singleton c ≠ text := by
  rintro rfl
  simp at long

/-- The readers give what the whole body gives when every cut falls beside the
text of its line. A body that every cutting reads alike is one whose lines hold
one byte of text at most. -/
theorem deltas_of_cut_body (reader : Reader) (format : Format) (rejects : format.RejectsSingle) (body : Bytes) :
    (∀ chunks : List Bytes, chunks.flatten = body → CutsBesideText chunks →
      reader.deltas format (chunks.map .ok) = reader.deltas format [.ok body]) ∧
    ((∀ chunks : List Bytes, chunks.flatten = body →
        reader.deltas format (chunks.map .ok) = reader.deltas format [.ok body]) ↔
      ∀ line ∈ pieces lineFeed body, inked line ≤ 1) := by
  have whole : reader.deltas format [.ok body] = chunkItems reader format body := by
    simpa using deltas_chunks reader format [body]
  have cut : ∀ chunks : List Bytes, chunks.flatten = body → CutsBesideText chunks →
      reader.deltas format (chunks.map .ok) = reader.deltas format [.ok body] := by
    rintro chunks rfl beside
    rw [whole,deltas_chunks,chunks_flatten reader format chunks beside]
  refine ⟨cut,?_,?_⟩
  · intro alike
    have joined : (body.map (fun byte => [byte])).flatten = body := by
      rw [← List.flatMap_def,List.flatMap_singleton']
    have singles := alike (body.map (fun byte => [byte])) joined
    rw [whole,deltas_chunks] at singles
    have counted := singles_length reader format rejects body
    have bound := chunkItems_lines reader format body
    rw [← singles,counted] at bound
    have total := countP_pieces lineFeed (fun byte => !blankByte byte) feed_blank body
    have tight : ((pieces lineFeed body).map inked).sum ≤
        (((pieces lineFeed body).map inked).map (fun n => min 1 n)).sum := by
      rw [List.map_map]
      exact le_of_eq_of_le total bound
    intro line member
    exact min_sum_bound _ tight _ (List.mem_map_of_mem member)
  · rintro sparse chunks rfl
    exact cut chunks rfl (cutsBesideText_of_sparse chunks sparse)

def helloJson : String := "\x7b\"choices\":[\x7b\"delta\":\x7b\"content\":\"hi\"\x7d\x7d]\x7d"

def readHello (text : String) : Except String OpenAIStreamChunk :=
  if text = helloJson then .ok ⟨[⟨some "hi",none⟩]⟩ else .error "expected value at line 1 column 1"

theorem readHello_rejects : (Format.openAI readHello).RejectsSingle := by
  intro c
  exact ⟨_,if_neg (singleton_ne helloJson c (by decide))⟩

theorem deltas_of_body_cut_at_line_end :
    Reader.parseSseStream.deltas (.openAI readHello)
        ([encode ("data: " ++ helloJson ++ "\n").toList,encode ['\n']].map .ok) =
      Reader.parseSseStream.deltas (.openAI readHello)
        [.ok (encode ("data: " ++ helloJson ++ "\n\n").toList)] :=
  (deltas_of_cut_body .parseSseStream (.openAI readHello) readHello_rejects _).1 _ (by decide)
    ⟨.inr (by decide),.inr (by decide),trivial⟩

/-- One event cut after `data: `: the first chunk is an error, the second the delta. -/
theorem cut_after_data_adds_error :
    [encode "data: ".toList,encode (helloJson ++ "\n").toList].flatten =
      encode ("data: " ++ helloJson ++ "\n").toList ∧
    Reader.parseSseStream.deltas (.openAI readHello)
        ([encode "data: ".toList,encode (helloJson ++ "\n").toList].map .ok) =
      [.error (.other "Invalid format: expected value at line 1 column 1"),.ok ⟨some "hi",none,none,none⟩] ∧
    Reader.parseSseStream.deltas (.openAI readHello) [.ok (encode ("data: " ++ helloJson ++ "\n").toList)] =
      [.ok ⟨some "hi",none,none,none⟩] := by
  decide +kernel

end ClawKernel.Provider.Sse
