import ClawKernel.Lib.Transcoding
import ClawKernel.Provider.Sse

/-! The fields of an event stream: which lines of a body that carry no data the
stream helper passes over, and how it reads a data line with and without the
space after the colon.
-/
namespace ClawKernel.Provider.Fields
open Lib.Pieces Lib.Utf8 Provider.Types Provider.Sse

def expectedValue : String := "expected value at line 1 column 1"

/-- The characters a JSON value can begin with. -/
def opensValue (c : Char) : Bool :=
  c = '\x7b' || c = '[' || c = '"' || c = '-' || c.isDigit || c = 't' || c = 'f' || c = 'n'

/-- serde_json's reading of a type from a text without leading blanks: the text
is given up at its first character exactly when no value begins with it. -/
structure SerdeJson (α : Type*) where
  fromStr : String → Except String α
  expects : ∀ c rest, isWhitespace c = false →
    (fromStr (String.ofList (c :: rest)) = .error expectedValue ↔ opensValue c = false)

inductive Spoken where
  | openAI (json : SerdeJson OpenAIStreamChunk)
  | anthropic (json : SerdeJson AnthropicStreamChunk)

def Spoken.format : Spoken → Format
  | .openAI json => .openAI json.fromStr
  | .anthropic json => .anthropic json.fromStr

/-- A line of a body. -/
structure Line where
  bytes : Bytes
  whole : ∀ byte ∈ bytes, lineFeed byte = false

def Line.text (line : Line) : List Char := trim (lossy line.bytes)

/-- The body of a response whose lines are these. -/
def wire : List Line → Bytes
  | [] => []
  | [line] => line.bytes
  | line :: rest => line.bytes ++ 10 :: wire rest

def noiseFields : List String := [":","event:","id:","retry:"]

/-- A blank line, a comment or a field other than data. -/
structure NoiseLine extends Line where
  noise : toLine.text = [] ∨ ∃ field ∈ noiseFields, field.toList <+: toLine.text

def dataLine (spaced : Bool) (payload : Line) : Line where
  bytes := encode (if spaced then "data: " else "data:").toList ++ payload.bytes
  whole := by
    intro byte member
    rcases List.mem_append.mp member with field | inside
    · clear member
      revert byte
      cases spaced <;> decide +kernel
    · exact payload.whole byte inside

/-- A line kept, a line without data put in, a data line written without its space. -/
inductive Edit where
  | keep (line : Line)
  | insert (line : NoiseLine)
  | unspace (payload : Line)

def Edit.before : Edit → List Line
  | .keep line => [line]
  | .insert _ => []
  | .unspace payload => [dataLine true payload]

def Edit.after : Edit → List Line
  | .keep line => [line]
  | .insert line => [line.toLine]
  | .unspace payload => [dataLine false payload]

def before (script : List Edit) : List Line := script.flatMap Edit.before

def after (script : List Edit) : List Line := script.flatMap Edit.after

def yields (spoken : Spoken) (body : List Line) : List Item :=
  parseSseStream spoken.format [.ok (wire body)]

def named (spoken : Spoken) (text : List Char) : Prop :=
  (∃ json, spoken = .anthropic json) ∧ "event:".toList <+: text

/-- A line put in that is blank, or names the event to Anthropic's format; a
payload that is blank, has a space of its own, or is no JSON at its first character. -/
def Edit.Harmless (spoken : Spoken) : Edit → Prop
  | .keep _ => True
  | .insert line => line.text = [] ∨ named spoken line.text
  | .unspace payload => payload.text = [] ∨ (lossy payload.bytes).head? = some ' ' ∨
      ∀ c ∈ payload.text.head?, opensValue c = false

theorem trim_surrounded (text : List Char) :
    ∃ front back, blank front = true ∧ blank back = true ∧ text = front ++ (trim text ++ back) := by
  refine ⟨text.takeWhile isWhitespace,(text.dropWhile isWhitespace).rtakeWhile isWhitespace,?_,?_,?_⟩
  · exact List.all_eq_true.mpr (fun c member => List.mem_takeWhile_imp member)
  · exact List.all_eq_true.mpr (fun c member => List.mem_rtakeWhile_imp member)
  · rw [trim,List.rdropWhile_append_rtakeWhile,List.takeWhile_append_dropWhile]

theorem trim_trim (text : List Char) : trim (trim text) = trim text := by
  obtain ⟨front,back,leading,trailing,parts⟩ := trim_surrounded text
  conv_rhs => rw [parts,trim_append_left _ _ leading,trim_append_right _ _ trailing]

theorem trim_head (text : List Char) (c : Char) (rest : List Char) (shown : trim text = c :: rest) :
    isWhitespace c = false := by
  have kept : (text.dropWhile isWhitespace).head? = some c := by
    have starts : trim text <+: text.dropWhile isWhitespace := List.rdropWhile_prefix _ _
    rw [shown] at starts
    obtain ⟨tail,parts⟩ := starts
    rw [← parts]
    rfl
  have dark := List.head?_dropWhile_not isWhitespace text
  rw [kept] at dark
  simpa using dark

theorem blank_of_trim (text : List Char) (none : trim text = []) : blank text = true := by
  obtain ⟨front,back,leading,trailing,parts⟩ := trim_surrounded text
  rw [parts,none]
  simp only [blank,List.nil_append,List.all_append,Bool.and_eq_true]
  exact ⟨leading,trailing⟩

/-- Ink on both sides keeps what stands between from being trimmed. -/
theorem trim_field (c : Char) (field text : List Char) (ink : isWhitespace c = false) (filled : trim text ≠ []) :
    trim (c :: field ++ text) = c :: field ++ text.rdropWhile isWhitespace := by
  have some : ¬(text.reverse.dropWhile isWhitespace).isEmpty = true := by
    intro gone
    rw [List.isEmpty_iff,List.dropWhile_eq_nil_iff] at gone
    have white : blank text = true := List.all_eq_true.mpr (fun c member => gone c (List.mem_reverse.mpr member))
    exact filled (trim_blank text white)
  rw [trim,List.cons_append,List.dropWhile_cons_of_neg (by simp [ink]),List.rdropWhile,← List.cons_append,
    List.reverse_append,List.dropWhile_append,if_neg some,List.reverse_append,List.reverse_reverse,List.rdropWhile]

theorem trim_rdropWhile (text : List Char) : trim (text.rdropWhile isWhitespace) = trim text := by
  have trailing : blank (text.rtakeWhile isWhitespace) = true :=
    List.all_eq_true.mpr (fun c member => List.mem_rtakeWhile_imp member)
  have parts : text.rdropWhile isWhitespace ++ text.rtakeWhile isWhitespace = text := List.rdropWhile_append_rtakeWhile
  conv_rhs => rw [← parts,trim_append_right _ _ trailing]

theorem payload_plain (text : List Char) (other : ¬dataPrefix <+: trim text) : payload (trim text) = trim text := by
  have none : parseSseLine (trim text) = none := by
    rw [parseSseLine,trim_trim]
    exact if_neg (fun starts => other (List.isPrefixOf_iff_prefix.mp starts))
  rw [payload,none]

theorem payload_spaced (text : List Char) (filled : trim text ≠ []) : payload (trim (dataPrefix ++ text)) = trim text := by
  have shown : trim (dataPrefix ++ text) = dataPrefix ++ text.rdropWhile isWhitespace :=
    trim_field 'd' "ata: ".toList text (by decide) filled
  have found : parseSseLine (trim (dataPrefix ++ text)) = some (text.rdropWhile isWhitespace) := by
    rw [parseSseLine,trim_trim,shown,if_pos (List.isPrefixOf_iff_prefix.mpr (List.prefix_append _ _)),List.drop_left]
  simp only [payload,found,trim_rdropWhile]

def refusal : Item := .error (.other ("Invalid format: " ++ expectedValue))

def items (spoken : Spoken) (text : List Char) : List Item := lineItems spoken.format .other text

theorem items_blank (spoken : Spoken) (text : List Char) (none : trim text = []) : items spoken text = [] := by
  rw [items,lineItems,none]
  rfl

theorem items_named (spoken : Spoken) (text : List Char) (event : named spoken (trim text)) : items spoken text = [] := by
  obtain ⟨⟨json,rfl⟩,starts⟩ := event
  have filled : (trim text).isEmpty = false := by
    cases shown : trim text with
    | nil => simp [shown] at starts
    | cons c rest => rfl
  simp only [items,lineItems,filled,parseLine,Spoken.format,Format.parseStreamChunk,anthropicParseStreamChunk,lossy_encode,
    trim_trim,List.isPrefixOf_iff_prefix.mpr starts,if_true,Bool.false_eq_true,if_false,Option.toList_none]

theorem items_of_payload (spoken : Spoken) (text other : List Char) (filled : trim text ≠ []) (also : trim other ≠ [])
    (unnamed : ¬named spoken (trim text)) (nor : ¬named spoken (trim other))
    (same : payload (trim text) = payload (trim other)) : items spoken text = items spoken other := by
  have some : (trim text).isEmpty = false := by simpa using filled
  have more : (trim other).isEmpty = false := by simpa using also
  cases spoken with
  | openAI json =>
    simp only [items,lineItems,some,more,parseLine,Spoken.format,Format.parseStreamChunk,openAIParseStreamChunk,lossy_encode,
      trim_trim,same]
  | anthropic json =>
    have first : ¬"event:".toList.isPrefixOf (trim text) = true :=
      fun starts => unnamed ⟨⟨json,rfl⟩,List.isPrefixOf_iff_prefix.mp starts⟩
    have second : ¬"event:".toList.isPrefixOf (trim other) = true :=
      fun starts => nor ⟨⟨json,rfl⟩,List.isPrefixOf_iff_prefix.mp starts⟩
    simp only [items,lineItems,some,more,parseLine,Spoken.format,Format.parseStreamChunk,anthropicParseStreamChunk,
      lossy_encode,trim_trim,same,if_neg first,if_neg second]

theorem items_length (spoken : Spoken) (text : List Char) : (items spoken text).length ≤ 1 := by
  unfold items lineItems
  split
  · exact Nat.zero_le 1
  · cases parseLine spoken.format .other (trim text) with
    | none => exact Nat.zero_le 1
    | some item => exact Nat.le_refl 1

theorem not_done (c : Char) (rest : List Char) (closed : opensValue c = false) : c :: rest ≠ "[DONE]".toList := by
  intro same
  rw [List.head_eq_of_cons_eq same] at closed
  exact absurd closed (by decide)

theorem items_refused_iff (spoken : Spoken) (text : List Char) (filled : trim text ≠ []) :
    items spoken text = [refusal] ↔
      spoken.format.parseStreamChunk (encode (trim text)) = .error ("Invalid format: " ++ expectedValue) := by
  have inked : (trim text).isEmpty = false := by simpa using filled
  rw [items,lineItems,inked]
  simp only [Bool.false_eq_true,if_false,parseLine]
  cases spoken.format.parseStreamChunk (encode (trim text)) with
  | error message => simp [refusal]
  | ok delta => cases delta <;> simp [refusal]

theorem openAI_refused_iff (json : SerdeJson OpenAIStreamChunk) (text : List Char) (c : Char) (rest : List Char)
    (ink : isWhitespace c = false) (shown : payload (trim text) = c :: rest) :
    openAIParseStreamChunk json.fromStr (encode (trim text)) = .error ("Invalid format: " ++ expectedValue) ↔
      opensValue c = false := by
  simp only [openAIParseStreamChunk,lossy_encode,trim_trim,shown]
  split
  · rename_i done
    have last : c :: rest = "[DONE]".toList := by simpa using done
    have opens : ¬opensValue c = false := fun closed => not_done c rest closed last
    exact iff_of_false (by simp) opens
  · rw [← json.expects c rest ink]
    cases json.fromStr (String.ofList (c :: rest)) with
    | error message => simp
    | ok chunk =>
      obtain ⟨_ | _⟩ := chunk
      all_goals simp

theorem anthropic_refused_iff (json : SerdeJson AnthropicStreamChunk) (text : List Char) (c : Char) (rest : List Char)
    (ink : isWhitespace c = false) (shown : payload (trim text) = c :: rest) (unnamed : ¬"event:".toList <+: trim text) :
    anthropicParseStreamChunk json.fromStr (encode (trim text)) = .error ("Invalid format: " ++ expectedValue) ↔
      opensValue c = false := by
  have plain : ¬"event:".toList.isPrefixOf (trim text) = true :=
    fun starts => unnamed (List.isPrefixOf_iff_prefix.mp starts)
  simp only [anthropicParseStreamChunk,lossy_encode,trim_trim,shown,if_neg plain,List.isEmpty_cons,Bool.false_eq_true,
    if_false]
  rw [← json.expects c rest ink]
  cases json.fromStr (String.ofList (c :: rest)) with
  | error message => simp
  | ok chunk =>
    cases chunk with
    | contentBlockDelta deltaType text =>
      simp only
      split <;> simp
    | messageDelta stopReason outputTokens => simp
    | messageStop => simp
    | other => simp

/-- The text is given up where no JSON value begins. -/
theorem items_refusal_iff (spoken : Spoken) (text : List Char) (c : Char) (rest : List Char)
    (unnamed : ¬named spoken (trim text)) (ink : isWhitespace c = false) (shown : payload (trim text) = c :: rest)
    (filled : trim text ≠ []) : items spoken text = [refusal] ↔ opensValue c = false := by
  rw [items_refused_iff spoken text filled]
  cases spoken with
  | openAI json => exact openAI_refused_iff json text c rest ink shown
  | anthropic json =>
    exact anthropic_refused_iff json text c rest ink shown (fun starts => unnamed ⟨⟨json,rfl⟩,starts⟩)

theorem lossy_dataLine (spaced : Bool) (payload : Line) : lossy (dataLine spaced payload).bytes =
    (if spaced then "data: " else "data:").toList ++ lossy payload.bytes :=
  lossy_encode_append _ _

theorem not_event_of_data (text : List Char) (data : "data:".toList <+: text) : ¬"event:".toList <+: text := by
  rintro ⟨two,same⟩
  obtain ⟨one,rfl⟩ := data
  exact absurd (List.head_eq_of_cons_eq same) (by decide)

theorem not_named_of_data (spoken : Spoken) (text : List Char) (data : "data:".toList <+: text) : ¬named spoken text :=
  fun event => not_event_of_data text data event.2

theorem pieces_wire (line : Line) (body : List Line) :
    pieces lineFeed (wire (line :: body)) = (line :: body).map Line.bytes := by
  induction body generalizing line with
  | nil => exact pieces_of_none lineFeed line.bytes line.whole
  | cons next body ih =>
    change pieces lineFeed (line.bytes ++ 10 :: wire (next :: body)) = _
    rw [pieces_cut lineFeed line.bytes 10 _ line.whole rfl,ih next]
    rfl

/-- Every body is read line by line. -/
theorem yields_lines (spoken : Spoken) (body : List Line) :
    yields spoken body = body.flatMap (fun line => items spoken (lossy line.bytes)) := by
  have whole : yields spoken body = (pieces newline (lossy (wire body))).flatMap (items spoken) := by
    have read := deltas_chunks .parseSseStream spoken.format [wire body]
    rw [List.map_singleton,List.flatMap_singleton] at read
    exact read
  rw [whole,pieces_lossy]
  cases body with
  | nil => exact items_blank spoken [] rfl
  | cons line body => rw [pieces_wire,List.map_map,List.flatMap_map]; rfl

/-- Every body has lines. -/
theorem wire_lines (bytes : Bytes) : ∃ line body, wire (line :: body) = bytes := by
  induction bytes with
  | nil => exact ⟨⟨[],by simp⟩,[],rfl⟩
  | cons byte rest ih =>
    obtain ⟨line,body,rfl⟩ := ih
    by_cases feed : lineFeed byte = true
    · obtain rfl : byte = 10 := of_decide_eq_true feed
      exact ⟨⟨[],by simp⟩,line :: body,rfl⟩
    · have longer : ∀ b ∈ byte :: line.bytes, lineFeed b = false :=
        List.forall_mem_cons.mpr ⟨Bool.not_eq_true _ ▸ feed,line.whole⟩
      refine ⟨⟨byte :: line.bytes,longer⟩,body,?_⟩
      cases body <;> rfl

private theorem noiseFields_start : ∀ field ∈ noiseFields,
    ∃ c rest, field.toList = c :: rest ∧ opensValue c = false ∧ c ≠ 'd' := by
  rw [noiseFields,List.forall_mem_cons,List.forall_mem_cons,List.forall_mem_cons,List.forall_mem_singleton]
  exact ⟨⟨':',[],rfl,rfl,by decide⟩,⟨'e',"vent:".toList,rfl,rfl,by decide⟩,⟨'i',"d:".toList,rfl,rfl,by decide⟩,
    ⟨'r',"etry:".toList,rfl,rfl,by decide⟩⟩

/-- A line without data is passed over when it is blank or names the event to
Anthropic's format, and is otherwise one error. -/
theorem items_noise (spoken : Spoken) (line : NoiseLine) :
    items spoken (lossy line.bytes) = [] ↔ line.text = [] ∨ named spoken line.text := by
  by_cases none : line.text = []
  · exact iff_of_true (items_blank spoken _ none) (.inl none)
  by_cases event : named spoken line.text
  · exact iff_of_true (items_named spoken _ event) (.inr event)
  obtain ⟨field,member,starts⟩ := line.noise.resolve_left none
  obtain ⟨c,others,letters,closed,other⟩ := noiseFields_start field member
  obtain ⟨more,parts⟩ := starts
  have shown : line.text = c :: (others ++ more) := by
    rw [← parts,letters]
    rfl
  have plain : ¬dataPrefix <+: line.text := by
    rintro ⟨after,data⟩
    rw [shown] at data
    exact other (List.head_eq_of_cons_eq data).symm
  have read := payload_plain _ plain
  have refused := (items_refusal_iff spoken _ c _ event (trim_head _ c _ shown) (read.trans shown) none).mpr closed
  refine iff_of_false ?_ (by rintro (gone | gone) <;> contradiction)
  rw [refused]
  exact List.cons_ne_nil _ _

theorem items_congr (spoken : Spoken) (text other : List Char) (same : trim text = trim other) :
    items spoken text = items spoken other := by
  rw [items,items,lineItems,lineItems,same]

theorem data_shown (text : List Char) (filled : trim text ≠ []) :
    trim (dataPrefix ++ text) ≠ [] ∧ "data:".toList <+: trim (dataPrefix ++ text) := by
  have shown : trim (dataPrefix ++ text) = dataPrefix ++ text.rdropWhile isWhitespace :=
    trim_field 'd' "ata: ".toList text (by decide) filled
  rw [shown]
  exact ⟨List.cons_ne_nil _ _,⟨' ' :: text.rdropWhile isWhitespace,rfl⟩⟩

theorem items_spaced_congr (spoken : Spoken) (text other : List Char) (filled : trim text ≠ [])
    (same : trim text = trim other) : items spoken (dataPrefix ++ text) = items spoken (dataPrefix ++ other) := by
  have also : trim other ≠ [] := same ▸ filled
  obtain ⟨first,data⟩ := data_shown text filled
  obtain ⟨second,more⟩ := data_shown other also
  apply items_of_payload spoken _ _ first second (not_named_of_data spoken _ data) (not_named_of_data spoken _ more)
  rw [payload_spaced text filled,payload_spaced other also,same]

theorem items_spaced_refusal (spoken : Spoken) (text : List Char) (c : Char) (rest : List Char)
    (shown : trim text = c :: rest) : items spoken (dataPrefix ++ text) = [refusal] ↔ opensValue c = false := by
  have filled : trim text ≠ [] := by
    rw [shown]
    exact List.cons_ne_nil c rest
  obtain ⟨inked,data⟩ := data_shown text filled
  have read := (payload_spaced text filled).trans shown
  exact items_refusal_iff spoken _ c rest (not_named_of_data spoken _ data) (trim_head text c rest shown) read inked

/-- Without the space the whole line is read as JSON, which no value begins with `d`. -/
theorem items_tight (spoken : Spoken) (text : List Char) (filled : trim text ≠ []) (close : text.head? ≠ some ' ') :
    items spoken ("data:".toList ++ text) = [refusal] := by
  have shown : trim ("data:".toList ++ text) = "data:".toList ++ text.rdropWhile isWhitespace :=
    trim_field 'd' "ata:".toList text (by decide) filled
  have plain : ¬dataPrefix <+: trim ("data:".toList ++ text) := by
    rw [shown]
    rintro ⟨more,parts⟩
    have joined : "data:".toList ++ ' ' :: more = "data:".toList ++ text.rdropWhile isWhitespace := parts
    have after := List.append_cancel_left joined
    obtain ⟨tail,whole⟩ := List.rdropWhile_prefix isWhitespace text
    rw [← after] at whole
    apply close
    rw [← whole]
    rfl
  have read := payload_plain _ plain
  rw [shown] at read
  refine (items_refusal_iff spoken _ 'd' ("ata:".toList ++ text.rdropWhile isWhitespace) ?_ (by decide) ?_ ?_).mpr
    (by decide)
  · exact not_named_of_data spoken _ (by rw [shown]; exact List.prefix_append _ _)
  · rw [shown]
    exact read
  · rw [shown]
    exact List.cons_ne_nil _ _

/-- What the space of a data line changes. -/
theorem items_unspaced (spoken : Spoken) (payload : Line) :
    items spoken (lossy (dataLine false payload).bytes) = items spoken (lossy (dataLine true payload).bytes) ↔
      (Edit.unspace payload).Harmless spoken := by
  rw [lossy_dataLine,lossy_dataLine]
  change items spoken ("data:".toList ++ lossy payload.bytes) = items spoken (dataPrefix ++ lossy payload.bytes) ↔ _
  by_cases none : payload.text = []
  · have white := blank_of_trim _ none
    refine iff_of_true (items_congr spoken _ _ ?_) (.inl none)
    rw [trim_append_right _ _ white,trim_append_right _ _ white]
    decide
  by_cases own : (lossy payload.bytes).head? = some ' '
  · obtain ⟨rest,parts⟩ := List.head?_eq_some_iff.mp own
    have same : trim rest = trim (lossy payload.bytes) := by
      rw [parts]
      exact (trim_append_left [' '] rest (by decide)).symm
    have filled : trim rest ≠ [] := same ▸ none
    refine iff_of_true ?_ (.inr (.inl own))
    rw [← items_spaced_congr spoken rest _ filled same,parts]
    rfl
  · obtain ⟨c,tail,shown⟩ := List.exists_cons_of_ne_nil none
    rw [items_tight spoken _ none own,eq_comm,items_spaced_refusal spoken _ c tail shown]
    simp only [Edit.Harmless,own,false_or,shown,reduceCtorEq,List.head?_cons,Option.mem_some_iff,forall_eq']

/-- An edit takes nothing away and changes nothing when it is harmless. -/
theorem edit_items (spoken : Spoken) (edit : Edit) :
    (edit.before.flatMap (fun line => items spoken (lossy line.bytes))).length ≤
        (edit.after.flatMap (fun line => items spoken (lossy line.bytes))).length ∧
      (edit.after.flatMap (fun line => items spoken (lossy line.bytes)) =
          edit.before.flatMap (fun line => items spoken (lossy line.bytes)) ↔ edit.Harmless spoken) := by
  cases edit with
  | keep line => exact ⟨Nat.le_refl _,iff_of_true rfl trivial⟩
  | insert line =>
    refine ⟨Nat.zero_le _,?_⟩
    rw [Edit.after,Edit.before,List.flatMap_singleton,List.flatMap_nil]
    exact items_noise spoken line
  | unspace payload =>
    rw [Edit.after,Edit.before,List.flatMap_singleton,List.flatMap_singleton]
    refine ⟨?_,items_unspaced spoken payload⟩
    by_cases harmless : (Edit.unspace payload).Harmless spoken
    · rw [(items_unspaced spoken payload).mpr harmless]
    · have one := items_length spoken (lossy (dataLine true payload).bytes)
      have refused : items spoken (lossy (dataLine false payload).bytes) = [refusal] := by
        rw [lossy_dataLine]
        exact items_tight spoken _ (fun none => harmless (.inl none)) (fun own => harmless (.inr (.inl own)))
      rw [refused]
      exact one

/-- Lines put in and spaces left out change what the helper yields unless every one
of them is harmless; harmless ones may be put in, taken out and respaced at will. -/
theorem yields_same_iff (spoken : Spoken) (script : List Edit) :
    (yields spoken (after script) = yields spoken (before script) ↔ ∀ edit ∈ script, edit.Harmless spoken) ∧
    (∀ other, before other = before script → (∀ edit ∈ other, edit.Harmless spoken) →
      (∀ edit ∈ script, edit.Harmless spoken) → yields spoken (after other) = yields spoken (after script)) ∧
    ∀ bytes, ∃ body, wire body = bytes := by
  have exact_edits (script : List Edit) : yields spoken (after script) = yields spoken (before script) ↔
      ∀ edit ∈ script, edit.Harmless spoken := by
    rw [yields_lines,yields_lines,after,before,List.flatMap_assoc,List.flatMap_assoc,
      flatMap_eq_iff _ _ script (fun edit _ => (edit_items spoken edit).1)]
    exact forall₂_congr (fun edit _ => (edit_items spoken edit).2)
  refine ⟨exact_edits script,?_,fun bytes => ?_⟩
  · intro other base first second
    rw [(exact_edits other).mpr first,(exact_edits script).mpr second,base]
  · obtain ⟨line,body,shown⟩ := wire_lines bytes
    exact ⟨line :: body,shown⟩

def hello : SerdeJson OpenAIStreamChunk where
  fromStr text :=
    if text = helloJson then .ok ⟨[⟨some "hi",none⟩]⟩
    else if text.toList.head?.all opensValue then .error "EOF while parsing a value at line 1 column 1"
    else .error expectedValue
  expects := by
    intro c rest _
    split_ifs with hi opens
    · have start : c = '\x7b' := by
        have letters := congrArg String.toList hi
        rw [String.toList_ofList] at letters
        exact List.head_eq_of_cons_eq letters
      rw [start]
      decide
    · simp only [String.toList_ofList,List.head?_cons,Option.all_some] at opens
      rw [opens]
      decide
    · simp only [String.toList_ofList,List.head?_cons,Option.all_some] at opens
      exact iff_of_true rfl (Bool.not_eq_true _ ▸ opens)

def ping : NoiseLine where
  bytes := encode ": ping".toList
  whole := by decide +kernel
  noise := by decide +kernel

def greeting : Line where
  bytes := encode helloJson.toList
  whole := by decide +kernel

/-- A comment put in before an event becomes an error, and the event written without
its space becomes one as well. -/
theorem comment_is_error :
    yields (.openAI hello) (before [.insert ping,.keep (dataLine true greeting)]) =
      [.ok ⟨some "hi",none,none,none⟩] ∧
    yields (.openAI hello) (after [.insert ping,.keep (dataLine true greeting)]) =
      [.error (.other "Invalid format: expected value at line 1 column 1"),.ok ⟨some "hi",none,none,none⟩] ∧
    yields (.openAI hello) (before [.unspace greeting]) = [.ok ⟨some "hi",none,none,none⟩] ∧
    yields (.openAI hello) (after [.unspace greeting]) =
      [.error (.other "Invalid format: expected value at line 1 column 1")] := by
  decide +kernel

end ClawKernel.Provider.Fields
