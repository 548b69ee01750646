import ClawKernel.Lib.Trials
import ClawKernel.Script.Literals

/-! Enums and the values of their members: the conversion with a counter that is an `i32`, and the rule
of TypeScript. Where the build checks for overflow the counter makes it panic, otherwise it wraps.
-/
namespace ClawKernel.Script.Enums
open Lib Lib.Regex Lib.Rewriting Lib.Trials
open Provider.Sse (isWhitespace trim blank)
open Tools.Validation (Text splitOnce)
open Transpile Literals

section Conversion
variable (checks : Bool)

/-- The counter plus one. -/
def addOne (n : Int) : Option Int := if checks ∧ n = 2147483647 then none else some (wrapI32 (n + 1))

/-- What a member becomes, and the counter after it. -/
def enumMember (counter : Int) (member : Text) : Option (Int × Text) :=
  match splitOnce '=' member with
  | some (memberName,value) =>
    (match parseI32 (trim value) with
      | some num => addOne checks num
      | none => some counter).map (fun next => (next,trim memberName ++ [':',' '] ++ trim value))
  | none => (addOne checks counter).map (fun next => (next,member ++ [':',' '] ++ (toString counter).toList))

def enumMembers : Int → List Text → Option (List Text)
  | _, [] => some []
  | counter, member :: rest =>
    (enumMember checks counter member).bind (fun made => (enumMembers made.1 rest).map (made.2 :: ·))

/-- An object with the given members. -/
def constObject (enumName : Text) (jsMembers : List Text) : Text :=
  "const ".toList ++ enumName ++ " = \x7b ".toList ++ [',',' '].intercalate jsMembers ++ " \x7d;".toList

def convertEnums (isWord : Char → Bool) : Trial where
  regex := (Transpile.convertEnums isWord).regex
  fresh _ group := (enumMembers checks 0 (members (group 2))).map (constObject (group 1))

end Conversion

/-! Without checks it is the conversion of the transpiler. -/

theorem enumMember_wraps (counter : Int) (member : Text) :
    enumMember false counter member = some (Transpile.enumMember counter member) := by
  unfold enumMember Transpile.enumMember addOne
  cases splitOnce '=' member with
  | none => rfl
  | some parts =>
    obtain ⟨memberName,value⟩ := parts
    simp only
    cases parseI32 (trim value) <;> rfl

theorem enumMembers_wrap (counter : Int) (l : List Text) :
    enumMembers false counter l = some (Transpile.enumMembers counter l) := by
  induction l generalizing counter with
  | nil => rfl
  | cons member rest ih =>
    rw [enumMembers,enumMember_wraps,Option.bind_some,ih,Option.map_some]
    rfl

theorem convertEnums_wraps (isWord : Char → Bool) (text : Text) :
    (convertEnums false isWord).apply [] text = some ((Transpile.convertEnums isWord).apply text) := by
  refine Trial.applyFrom_stage _ (Transpile.convertEnums isWord) rfl (fun found group => ?_) _ _ _
  exact congrArg (Option.map _) (enumMembers_wrap 0 _)

/-! Enums. -/

structure Blank where
  text : Text
  white : blank text = true

/-- A name, which no blank and no mark of an enum is in. -/
structure Identifier where
  text : Text
  filled : text ≠ []
  firm : ∀ c ∈ text, Firm c

/-- An integer after the mark, with the blanks on both sides of it. -/
structure Initialiser where
  before : Blank
  after : Blank
  text : Text
  value : Int
  reads : integerValue text = some value

structure Member where
  front : Blank
  name : Identifier
  initialiser : Option Initialiser
  back : Blank

/-- An enum; a comma may stand behind its last member. -/
structure Enum where
  space : Blank
  apart : space.text ≠ []
  name : Identifier
  gap : Blank
  members : List Member
  trailing : Option Blank

/-- The member without the blanks around it. -/
def Member.core (m : Member) : Text :=
  match m.initialiser with
  | none => m.name.text
  | some given => m.name.text ++ (given.before.text ++ '=' :: given.after.text) ++ given.text

def Member.text (m : Member) : Text := m.front.text ++ m.core ++ m.back.text

/-- What stands between the commas. -/
def Enum.parts (e : Enum) : List Text := e.members.map Member.text ++ e.trailing.toList.map Blank.text

def Enum.body (e : Enum) : Text := [','].intercalate e.parts

def Enum.text (e : Enum) : Text :=
  "enum".toList ++ (e.space.text ++ (e.name.text ++ (e.gap.text ++ '\x7b' :: (e.body ++ ['\x7d']))))

/-! The rule of TypeScript. -/

/-- The value of a member, after one of the given value. -/
def Member.valueAfter (m : Member) (previous : Int) : Int :=
  match m.initialiser with
  | none => previous + 1
  | some given => given.value

/-- What a member becomes if its value is the given one. -/
def Member.assigned (m : Member) (value : Int) : Text :=
  m.name.text ++ [':',' '] ++
    match m.initialiser with
    | none => (toString value).toList
    | some given => given.text

/-- The members with their values, after one of the given value. -/
def assigned : Int → List Member → List Text
  | _, [] => []
  | previous, m :: rest => m.assigned (m.valueAfter previous) :: assigned (m.valueAfter previous) rest

/-- The object that an enum should become; the first member comes after -1. -/
def Enum.object (e : Enum) : Text := constObject e.name.text (assigned (-1) e.members)

/-! What the conversion makes of a member. -/

theorem written_between (front middle back : Text) (one : Written front)
    (plain : ∀ c ∈ middle, c ≠ ',' ∧ c ≠ '\x7d') (other : Written back) : Written (front ++ middle ++ back) := by
  refine ⟨by simp [one.filled],fun c first => one.opens c ?_,fun c last => other.closes c ?_,?_⟩
  · rwa [List.append_assoc,List.head?_append_of_ne_nil _ one.filled] at first
  · rwa [List.getLast?_append_of_ne_nil _ other.filled] at last
  · exact List.forall_mem_append.mpr ⟨List.forall_mem_append.mpr ⟨one.plain,plain⟩,other.plain⟩

theorem Blank.plain (b : Blank) : ∀ c ∈ b.text, c ≠ ',' ∧ c ≠ '\x7d' := by
  intro c inside
  have white := List.all_eq_true.mp b.white c inside
  constructor
  · rintro rfl
    exact absurd white (by decide)
  · rintro rfl
    exact absurd white (by decide)

theorem Identifier.written (name : Identifier) : Written name.text := written_firm name.text name.filled name.firm

theorem Initialiser.written (given : Initialiser) : Written given.text := written_integer given.text given.value given.reads

theorem Member.written (m : Member) : Written m.core := by
  unfold Member.core
  cases m.initialiser with
  | none => exact m.name.written
  | some given =>
    refine written_between _ _ _ m.name.written ?_ given.written
    exact List.forall_mem_append.mpr ⟨given.before.plain,List.forall_mem_cons.mpr ⟨by decide,given.after.plain⟩⟩

theorem Member.text_plain (m : Member) : ∀ c ∈ m.text, c ≠ ',' ∧ c ≠ '\x7d' :=
  List.forall_mem_append.mpr ⟨List.forall_mem_append.mpr ⟨m.front.plain,m.written.plain⟩,m.back.plain⟩

theorem trim_written (text : Text) (written : Written text) : trim text = text :=
  Provider.Sse.trim_tight text written.opens written.closes

theorem trim_between (front text back : Text) (before : blank front = true) (written : Written text)
    (after : blank back = true) : trim (front ++ text ++ back) = text := by
  rw [Provider.Sse.trim_append_right _ _ after,Provider.Sse.trim_append_left _ _ before,trim_written text written]

theorem Identifier.unmarked (name : Identifier) : '=' ∉ name.text :=
  fun inside => (name.firm '=' inside).2.2.1 rfl

theorem Blank.unmarked (b : Blank) : '=' ∉ b.text := by
  intro inside
  exact absurd (List.all_eq_true.mp b.white '=' inside) (by decide)

theorem splitOnce_core (m : Member) : splitOnce '=' m.core =
    m.initialiser.map (fun given => (m.name.text ++ given.before.text,given.after.text ++ given.text)) := by
  unfold Member.core
  cases m.initialiser with
  | none => exact if_neg m.name.unmarked
  | some given =>
    have front : '=' ∉ m.name.text ++ given.before.text :=
      fun inside => (List.mem_append.mp inside).elim m.name.unmarked given.before.unmarked
    have parts : m.name.text ++ (given.before.text ++ '=' :: given.after.text) ++ given.text =
        (m.name.text ++ given.before.text) ++ '=' :: (given.after.text ++ given.text) := by
      simp only [List.append_assoc,List.cons_append]
    have none (c : Char) (inside : c ∈ m.name.text ++ given.before.text) : decide (c ≠ '=') = true :=
      decide_eq_true (fun same => front (same ▸ inside))
    simp only [parts,Option.map_some]
    rw [splitOnce,if_pos (by simp),List.takeWhile_append_of_pos none,List.dropWhile_append_of_pos none]
    simp

/-- The counter after a member. -/
def Member.step (checks : Bool) (counter : Int) (m : Member) : Option Int :=
  match m.initialiser with
  | none => addOne checks counter
  | some given =>
    match parseI32 given.text with
    | some num => addOne checks num
    | none => some counter

theorem enumMember_core (checks : Bool) (counter : Int) (m : Member) :
    enumMember checks counter m.core = (m.step checks counter).map (fun next => (next,m.assigned counter)) := by
  unfold enumMember Member.step
  rw [splitOnce_core]
  cases initial : m.initialiser with
  | none => simp only [Option.map_none,Member.assigned,Member.core,initial]
  | some given =>
    have value : trim (given.after.text ++ given.text) = given.text := by
      rw [Provider.Sse.trim_append_left _ _ given.after.white,trim_written _ given.written]
    have name : trim (m.name.text ++ given.before.text) = m.name.text := by
      rw [Provider.Sse.trim_append_right _ _ given.before.white,trim_written _ m.name.written]
    simp only [Option.map_some,Member.assigned,initial,value,name]

theorem Enum.parts_plain (e : Enum) : ∀ text ∈ e.parts, ∀ c ∈ text, c ≠ ',' ∧ c ≠ '\x7d' := by
  intro text inside
  rcases List.mem_append.mp inside with given | ends
  · obtain ⟨m,_,rfl⟩ := List.mem_map.mp given
    exact m.text_plain
  · obtain ⟨b,_,rfl⟩ := List.mem_map.mp ends
    exact b.plain

theorem parts_trimmed (e : Enum) :
    (e.parts.map trim).filter (fun member => !member.isEmpty) = e.members.map Member.core := by
  have trims : (e.members.map Member.text).map trim = e.members.map Member.core := by
    rw [List.map_map]
    refine List.map_congr_left (fun m _ => ?_)
    exact trim_between m.front.text m.core m.back.text m.front.white m.written m.back.white
  have ends : (e.trailing.toList.map Blank.text).map trim = e.trailing.toList.map (fun _ => []) := by
    rw [List.map_map]
    exact List.map_congr_left (fun b _ => Provider.Sse.trim_blank b.text b.white)
  rw [Enum.parts,List.map_append,trims,ends,List.filter_append,List.filter_eq_self.mpr,List.filter_eq_nil_iff.mpr,
    List.append_nil]
  · intro text inside
    obtain ⟨_,_,rfl⟩ := List.mem_map.mp inside
    simp
  · intro text inside
    obtain ⟨m,_,rfl⟩ := List.mem_map.mp inside
    simpa using m.written.filled

theorem members_body (e : Enum) : members e.body = e.members.map Member.core := by
  have trimmed := parts_trimmed e
  unfold members Enum.body
  by_cases empty : e.parts = []
  · rw [empty] at trimmed ⊢
    rw [← trimmed]
    rfl
  · rw [Pieces.pieces_intercalate _ ',' rfl _ empty,trimmed]
    exact fun text inside c member => beq_eq_false_iff_ne.mpr (e.parts_plain text inside c member).1

/-! The counter, and the values of TypeScript. -/

/-- The value of the last of some members. -/
def previous (before : List Member) : Int := before.foldl (fun value m => m.valueAfter value) (-1)

/-- The value of an initialiser that is read as an `i32`. -/
def Member.taken (m : Member) : Option Int :=
  m.initialiser.bind (fun given => if (parseI32 given.text).isSome then some given.value else none)

/-- One more than the nearest such value for each member without an initialiser after it; without any, counted from -1. -/
def reached (before : List Member) : Int :=
  (before.reverse.findSome? Member.taken).getD (-1) +
    (before.reverse.takeWhile (fun m => m.taken.isNone)).countP (fun m => m.initialiser.isNone)

theorem previous_snoc (before : List Member) (m : Member) : previous (before ++ [m]) = m.valueAfter (previous before) := by
  rw [previous,List.foldl_append]
  rfl

theorem reached_plain (before : List Member) (m : Member) (plain : m.initialiser = none) :
    reached (before ++ [m]) = reached before + 1 := by
  have untaken : m.taken = none := by rw [Member.taken,plain,Option.bind_none]
  simp only [reached,List.reverse_append,List.reverse_singleton,List.singleton_append,List.findSome?_cons,untaken,
    List.takeWhile_cons,Option.isNone_none,if_true,List.countP_cons,plain]
  omega

theorem reached_taken (before : List Member) (m : Member) (value : Int) (taken : m.taken = some value) :
    reached (before ++ [m]) = value := by
  simp [reached,taken]

theorem reached_refused (before : List Member) (m : Member) (given : Initialiser) (initial : m.initialiser = some given)
    (refused : m.taken = none) : reached (before ++ [m]) = reached before := by
  simp [reached,refused,initial]

/-- A member has no initialiser, one that is read as its own value, or one that is refused. -/
theorem Member.kinds (m : Member) :
    m.initialiser = none ∨
    (∃ given, m.initialiser = some given ∧ parseI32 given.text = some given.value ∧ m.taken = some given.value) ∨
    ∃ given, m.initialiser = some given ∧ parseI32 given.text = none ∧ m.taken = none := by
  unfold Member.taken
  cases m.initialiser with
  | none => exact .inl rfl
  | some given =>
    cases parsed : parseI32 given.text with
    | none => exact .inr (.inr ⟨given,rfl,parsed,by simp [parsed]⟩)
    | some num =>
      obtain rfl := parseI32_integer given.text num given.value parsed given.reads
      exact .inr (.inl ⟨given,rfl,parsed,by simp [parsed]⟩)

theorem reached_lower (before : List Member) : -2147483648 ≤ reached before := by
  induction before using List.reverseRecOn with
  | nil => decide
  | append_singleton before m ih =>
    obtain plain | ⟨given,_,parsed,taken⟩ | ⟨given,initial,_,refused⟩ := m.kinds
    · rw [reached_plain before m plain]
      omega
    · rw [reached_taken before m given.value taken]
      exact (parseI32_range given.text given.value parsed).1
    · rwa [reached_refused before m given initial refused]

theorem wrapI32_fits (n : Int) (lower : -2147483648 ≤ n) (upper : n ≤ 2147483647) : wrapI32 n = n := by
  unfold wrapI32
  omega

theorem wrapI32_succ (n : Int) : wrapI32 (wrapI32 n + 1) = wrapI32 (n + 1) := by
  unfold wrapI32
  omega

theorem addOne_eq (checks : Bool) (n : Int) (upper : n ≤ 2147483647) :
    addOne checks n = if checks = true → n < 2147483647 then some (wrapI32 (n + 1)) else none := by
  unfold addOne
  by_cases small : n < 2147483647
  · rw [if_neg (by omega),if_pos (fun _ => small)]
  · have last : n = 2147483647 := by omega
    cases checks <;> simp [last]

/-- One step of the counter, which stands at one more than what is reached. -/
theorem step_reached (checks : Bool) (done : List Member) (m : Member) (small : checks = true → reached done < 2147483647) :
    m.step checks (wrapI32 (reached done + 1)) =
      if checks = true → reached (done ++ [m]) < 2147483647 then some (wrapI32 (reached (done ++ [m]) + 1)) else none := by
  have lower := reached_lower done
  obtain plain | ⟨given,initial,parsed,taken⟩ | ⟨given,initial,parsed,refused⟩ := m.kinds
  · rw [reached_plain done m plain]
    unfold Member.step
    simp only [plain]
    cases checks with
    | false => simp [addOne,wrapI32_succ]
    | true =>
      have fits := wrapI32_fits (reached done + 1) (by omega) (by have := small rfl; omega)
      rw [fits,addOne_eq true _ (by have := small rfl; omega)]
  · rw [reached_taken done m given.value taken]
    unfold Member.step
    simp only [initial,parsed]
    exact addOne_eq checks given.value (parseI32_range given.text given.value parsed).2
  · rw [reached_refused done m given initial refused,if_pos small]
    unfold Member.step
    simp only [initial,parsed]

/-- From some members on, every one without an initialiser comes where the count has come to; where overflow is
checked, no count passes the limit. -/
structure Counts (checks : Bool) (done todo : List Member) : Prop where
  follows : ∀ before m after, todo = before ++ m :: after → m.initialiser = none →
    wrapI32 (reached (done ++ before) + 1) = previous (done ++ before) + 1
  small : checks = true → ∀ before after, todo = before ++ after → reached (done ++ before) < 2147483647

theorem counts_cons (checks : Bool) (done rest : List Member) (m : Member) :
    Counts checks done (m :: rest) ↔
      (m.initialiser = none → wrapI32 (reached done + 1) = previous done + 1) ∧
      (checks = true → reached done < 2147483647) ∧ Counts checks (done ++ [m]) rest := by
  constructor
  · intro counts
    refine ⟨fun plain => ?_,fun on => ?_,fun before n after same plain => ?_,fun on before after same => ?_⟩
    · have here := counts.follows [] m rest rfl plain
      rwa [List.append_nil] at here
    · have here := counts.small on [] (m :: rest) rfl
      rwa [List.append_nil] at here
    · rw [List.append_assoc]
      exact counts.follows (m :: before) n after (by rw [same]; rfl) plain
    · rw [List.append_assoc]
      exact counts.small on (m :: before) after (by rw [same]; rfl)
  · rintro ⟨here,small,later⟩
    refine ⟨fun before n after same plain => ?_,fun on before after same => ?_⟩
    · cases before with
      | nil =>
        obtain ⟨rfl,rfl⟩ := List.cons_eq_cons.mp same
        rw [List.append_nil]
        exact here plain
      | cons first before =>
        obtain ⟨rfl,rfl⟩ := List.cons_eq_cons.mp same
        have there := later.follows before n after rfl plain
        rwa [List.append_assoc] at there
    · cases before with
      | nil =>
        rw [List.append_nil]
        exact small on
      | cons first before =>
        obtain ⟨rfl,rfl⟩ := List.cons_eq_cons.mp same
        have there := later.small on before after rfl
        rwa [List.append_assoc] at there

theorem toString_injective (one other : Int) (same : (toString one).toList = (toString other).toList) : one = other := by
  have read := integerValue_toString one
  rw [same,integerValue_toString other] at read
  exact (Option.some.inj read).symm

theorem assigned_iff (m : Member) (one other : Int) :
    m.assigned one = m.assigned other ↔ (m.initialiser = none → one = other) := by
  unfold Member.assigned
  cases m.initialiser with
  | none =>
    simp only [List.append_cancel_left_eq,forall_const]
    exact ⟨toString_injective one other,fun same => congrArg (fun n => (toString n).toList) same⟩
  | some given => simp

/-- The conversion of some members, by induction on those that are left. -/
theorem enumMembers_iff (checks : Bool) (done todo : List Member) (small : checks = true → reached done < 2147483647) :
    enumMembers checks (wrapI32 (reached done + 1)) (todo.map Member.core) = some (assigned (previous done) todo) ↔
      Counts checks done todo := by
  induction todo generalizing done with
  | nil =>
    refine iff_of_true rfl ⟨fun before m after same => by simp at same,fun on before after same => ?_⟩
    obtain ⟨rfl,_⟩ := List.append_eq_nil_iff.mp same.symm
    rw [List.append_nil]
    exact small on
  | cons m rest ih =>
    rw [List.map_cons,enumMembers,enumMember_core,step_reached checks done m small,assigned,counts_cons]
    by_cases fits : checks = true → reached (done ++ [m]) < 2147483647
    · have later := ih (done ++ [m]) fits
      rw [previous_snoc] at later
      rw [if_pos fits,Option.map_some,Option.bind_some,← later]
      simp only [Option.map_eq_some_iff,List.cons.injEq,assigned_iff]
      constructor
      · rintro ⟨_,made,here,rfl⟩
        refine ⟨fun plain => ?_,small,made⟩
        rw [here plain,Member.valueAfter,plain]
      · rintro ⟨here,_,made⟩
        refine ⟨_,made,fun plain => ?_,rfl⟩
        rw [here plain,Member.valueAfter,plain]
    · rw [if_neg fits,Option.map_none,Option.bind_none]
      refine iff_of_false (by simp) (fun counts => fits (fun on => ?_))
      have here := counts.2.2.small on [] rest rfl
      rwa [List.append_nil] at here

/-! Where the expression matches. -/

/-- `\w`: what these characters are not. -/
structure Words where
  isWord : Char → Bool
  dark : ∀ c, isWord c = true → isWhitespace c = false ∧ c ≠ '\x7b'

def Enum.captures (e : Enum) : List (Nat × Text) := [(2,e.body),(1,e.name.text)]

theorem Blank.all (b : Blank) : ∀ c ∈ b.text, isWhitespace c = true := List.all_eq_true.mp b.white

theorem Enum.body_plain (e : Enum) : ∀ c ∈ e.body, (c != '\x7d') = true := by
  have joined (parts : List Text) (plain : ∀ text ∈ parts, ∀ c ∈ text, c ≠ ',' ∧ c ≠ '\x7d') :
      ∀ c ∈ [','].intercalate parts, (c != '\x7d') = true := by
    induction parts with
    | nil => exact List.forall_mem_nil _
    | cons part rest ih =>
      obtain ⟨here,later⟩ := List.forall_mem_cons.mp plain
      have first : ∀ c ∈ part, (c != '\x7d') = true := fun c inside => bne_iff_ne.mpr (here c inside).2
      cases rest with
      | nil => rwa [List.intercalate_singleton]
      | cons next rest =>
        rw [List.intercalate_cons_cons]
        exact List.forall_mem_append.mpr ⟨List.forall_mem_append.mpr ⟨first,List.forall_mem_singleton.mpr rfl⟩,ih later⟩
  exact joined e.parts e.parts_plain

/-- The name comes after the blanks, and the brace after the name. -/
theorem name_opens (name : Identifier) (rest : Text) (c : Char) (first : (name.text ++ rest).head? = some c) :
    isWhitespace c = false ∧ c ≠ '\x7b' := by
  rw [List.head?_append_of_ne_nil _ name.filled] at first
  have firm := name.firm c (List.mem_of_mem_head? first)
  exact ⟨firm.1,firm.2.2.2.1⟩

theorem gap_opens (b : Blank) (rest : Text) (c : Char) (first : (b.text ++ '\x7b' :: rest).head? = some c) :
    isWhitespace c = true ∨ c = '\x7b' := by
  cases blanks : b.text with
  | nil =>
    rw [blanks] at first
    exact .inr (Option.some.inj first).symm
  | cons d more =>
    rw [blanks] at first
    obtain rfl := Option.some.inj first
    exact .inl (b.all d (blanks ▸ List.mem_cons_self))

theorem Words.stops (words : Words) (b : Blank) (rest : Text) (c : Char)
    (first : (b.text ++ '\x7b' :: rest).head? = some c) : words.isWord c = false := by
  by_contra word
  obtain ⟨dark,other⟩ := words.dark c (Bool.not_eq_false _ ▸ word)
  rcases gap_opens b rest c first with white | brace
  · rw [dark] at white
    cases white
  · exact other brace

theorem Enum.text_append (e : Enum) (rest : Text) : e.text ++ rest =
    "enum".toList ++ (e.space.text ++ (e.name.text ++ (e.gap.text ++ '\x7b' :: (e.body ++ '\x7d' :: rest)))) := by
  simp only [Enum.text,List.append_assoc,List.cons_append,List.nil_append]

theorem found (words : Words) (checks : Bool) (e : Enum) (named : ∀ c ∈ e.name.text, words.isWord c = true)
    (past rest : Text) :
    First (convertEnums checks words.isWord).regex ⟨past,e.text ++ rest,[]⟩ ⟨e.text.reverse ++ past,rest,e.captures⟩ := by
  have back : e.text.reverse ++ past = '\x7d' :: (e.body.reverse ++ '\x7b' :: (e.gap.text.reverse ++
      (e.name.text.reverse ++ (e.space.text.reverse ++ ("enum".toList.reverse ++ past))))) := by
    simp only [Enum.text,List.reverse_append,List.reverse_cons,List.append_assoc,List.reverse_nil,List.nil_append,
      List.cons_append]
  rw [e.text_append rest,back]
  refine first_concat _ _ _ _ _ (first_letters past _ [] "enum".toList) ?_
  refine first_concat _ _ _ _ _ (first_plus _ _ [] isWhitespace e.space.text e.apart e.space.all ?_) ?_
  · exact fun c first => (name_opens e.name _ c first).1
  refine first_concat _ _ _ _ _ (first_group _ _ [] 1 _ e.name.text
    (first_plus _ _ [] words.isWord e.name.text e.name.filled named (words.stops e.gap _))) ?_
  refine first_concat _ _ _ _ _ (first_star _ _ _ isWhitespace e.gap.text e.gap.all ?_) ?_
  · intro c first
    obtain rfl := Option.some.inj first
    decide
  refine first_concat _ _ _ _ _ (first_literal _ _ _ '\x7b') ?_
  refine first_concat _ _ _ _ _ (first_group _ _ _ 2 _ e.body
    (first_star _ _ _ (· != '\x7d') e.body e.body_plain ?_)) ?_
  · intro c first
    obtain rfl := Option.some.inj first
    decide
  refine first_concat _ _ _ _ _ (first_literal _ _ _ '\x7d') ?_
  rfl

/-- A text is cut in one way after a run of some characters. -/
theorem runs_same (p : Char → Bool) (one rest other rest' : Text) (same : one ++ rest = other ++ rest')
    (all : ∀ c ∈ one, p c = true) (all' : ∀ c ∈ other, p c = true) (stops : ∀ c, rest.head? = some c → p c = false)
    (stops' : ∀ c, rest'.head? = some c → p c = false) : one = other ∧ rest = rest' := by
  have cut (run tail : Text) (inside : ∀ c ∈ run, p c = true) (ends : ∀ c, tail.head? = some c → p c = false) :
      (run ++ tail).takeWhile p = run := by
    rw [List.takeWhile_append_of_pos inside]
    cases tail with
    | nil => simp
    | cons c tail => simp [ends c rfl]
  have equal : one = other := by rw [← cut one rest all stops,same,cut other rest' all' stops']
  subst equal
  exact ⟨rfl,List.append_cancel_left same⟩

/-- What a match takes at an enum: blanks, characters of a name, blanks and the brace. -/
theorem way_parts (words : Words) (checks : Bool) (e : Enum) (past rest : Text) (last : Place)
    (way : last ∈ (convertEnums checks words.isWord).regex.ways ⟨past,e.text ++ rest,[]⟩) :
    ∃ space name gap tail, e.space.text ++ (e.name.text ++ (e.gap.text ++ '\x7b' :: (e.body ++ '\x7d' :: rest))) =
        space ++ (name ++ (gap ++ '\x7b' :: tail)) ∧ (∀ c ∈ space, isWhitespace c = true) ∧ name ≠ [] ∧
      (∀ c ∈ name, words.isWord c = true) ∧ blank gap = true := by
  rw [e.text_append rest] at way
  obtain ⟨p1,keyword,way⟩ := (mem_concat_cons _ _ _ last).mp way
  obtain ⟨p2,blanks,way⟩ := (mem_concat_cons _ _ p1 last).mp way
  obtain ⟨p3,named,way⟩ := (mem_concat_cons _ _ p2 last).mp way
  obtain ⟨p4,more,way⟩ := (mem_concat_cons _ _ p3 last).mp way
  obtain ⟨p5,opens,_⟩ := (mem_concat_cons _ _ p4 last).mp way
  obtain ⟨space,takes2,white⟩ :=
    takes_only (fun c => isWhitespace c = true) (plus space) ⟨fun _ is => is,fun _ is => is⟩ p1 p2 blanks
  obtain ⟨name,takes3,wordy⟩ :=
    takes_only (fun c => words.isWord c = true) (.group 1 (plus (.one words.isWord))) ⟨fun _ is => is,fun _ is => is⟩
      p2 p3 named
  obtain ⟨first,member,_⟩ := takes_needs (fun _ => True) (.group 1 (plus (.one words.isWord))) (.inl (fun _ _ => trivial))
    p2 p3 named name takes3
  obtain ⟨gap,takes4,white'⟩ := takes_only (fun c => isWhitespace c = true) spaces (fun _ is => is) p3 p4 more
  have after := List.append_cancel_left (takes_word "enum" _ p1 keyword).1
  rw [takes2.1,takes3.1,takes4.1,(takes_literal '\x7b' p4 p5 opens).1] at after
  exact ⟨space,name,gap,p5.rest,after,white,List.ne_nil_of_mem member,wordy,List.all_eq_true.mpr white'⟩

/-- Where the expression matches at an enum, all of the name is read. -/
theorem named_of_way (words : Words) (checks : Bool) (e : Enum) (past rest : Text) (last : Place)
    (way : last ∈ (convertEnums checks words.isWord).regex.ways ⟨past,e.text ++ rest,[]⟩) :
    ∀ c ∈ e.name.text, words.isWord c = true := by
  obtain ⟨space,name,gap,tail,same,white,filled,wordy,blanks⟩ := way_parts words checks e past rest last way
  have opens (c : Char) (head : (name ++ (gap ++ '\x7b' :: tail)).head? = some c) : isWhitespace c = false := by
    rw [List.head?_append_of_ne_nil _ filled] at head
    exact (words.dark c (wordy c (List.mem_of_mem_head? head))).1
  obtain ⟨_,same⟩ := runs_same isWhitespace e.space.text _ space _ same e.space.all white
    (fun c head => (name_opens e.name _ c head).1) opens
  -- The rest of the name would begin where only a blank or the brace can stand.
  cases left : e.name.text.dropWhile words.isWord with
  | nil => exact List.dropWhile_eq_nil_iff.mp left
  | cons d more =>
    have stop : words.isWord d = false := by
      have head := List.head?_dropWhile_not words.isWord e.name.text
      rw [left] at head
      simpa using head
    have parts : e.name.text.takeWhile words.isWord ++ d :: more = e.name.text := by
      rw [← left]
      exact List.takeWhile_append_dropWhile
    have firm : Firm d := by
      refine e.name.firm d ?_
      rw [← parts]
      exact List.mem_append_right _ List.mem_cons_self
    rw [← parts,List.append_assoc] at same
    obtain ⟨_,same⟩ := runs_same words.isWord _ _ name _ same (fun c inside => List.mem_takeWhile_imp inside) wordy
      (fun c head => Option.some.inj head ▸ stop) (fun c head => words.stops ⟨gap,blanks⟩ tail c head)
    rcases gap_opens ⟨gap,blanks⟩ tail d (congrArg List.head? same.symm) with white | brace
    · rw [firm.1] at white
      cases white
    · exact (firm.2.2.2.1 brace).elim

/-! The object that an enum becomes. -/

/-- Each text is the member's, with some value. -/
def Made (l : List Member) (texts : List Text) : Prop :=
  List.Forall₂ (fun m text => ∃ value, text = m.assigned value) l texts

theorem made_assigned (value : Int) (l : List Member) : Made l (assigned value l) := by
  induction l generalizing value with
  | nil => exact .nil
  | cons m rest ih => exact .cons ⟨_,rfl⟩ (ih _)

theorem made_enumMembers (checks : Bool) (counter : Int) (l : List Member) (texts : List Text)
    (some : enumMembers checks counter (l.map Member.core) = some texts) : Made l texts := by
  induction l generalizing counter texts with
  | nil =>
    cases some
    exact .nil
  | cons m rest ih =>
    rw [List.map_cons,enumMembers,enumMember_core] at some
    obtain ⟨made,here,later⟩ := Option.bind_eq_some_iff.mp some
    obtain ⟨next,_,rfl⟩ := Option.map_eq_some_iff.mp here
    obtain ⟨others,made,rfl⟩ := Option.map_eq_some_iff.mp later
    exact .cons ⟨counter,rfl⟩ (ih next others made)

theorem assigned_plain (m : Member) (value : Int) : ',' ∉ m.assigned value := by
  intro inside
  rcases List.mem_append.mp inside with front | last
  · rcases List.mem_append.mp front with name | mark
    · exact (m.name.firm ',' name).2.1 rfl
    · exact absurd mark (by decide)
  · cases given : m.initialiser with
    | none =>
      rw [given] at last
      exact ((written_integer _ value (integerValue_toString value)).plain ',' last).1 rfl
    | some initial =>
      rw [given] at last
      exact (initial.written.plain ',' last).1 rfl

/-- The texts can be told from one another in the object. -/
theorem intercalate_made (l : List Member) (one other : List Text) (made : Made l one) (made' : Made l other)
    (same : [',',' '].intercalate one = [',',' '].intercalate other) : one = other := by
  have plain (m : Member) (value : Int) (c : Char) (inside : c ∈ m.assigned value) : (c != ',') = true :=
    bne_iff_ne.mpr (fun comma => assigned_plain m value (comma ▸ inside))
  have comma (tail : Text) (c : Char) (head : (',' :: tail).head? = some c) : (c != ',') = false := by
    obtain rfl := Option.some.inj head
    rfl
  induction made generalizing other with
  | nil =>
    cases made'
    rfl
  | cons here later ih =>
    obtain ⟨value,rfl⟩ := here
    cases made' with
    | cons here' later' =>
      obtain ⟨value',rfl⟩ := here'
      cases later with
      | nil =>
        cases later'
        simpa using same
      | cons next later =>
        cases later' with
        | cons next' later' =>
          rw [List.intercalate_cons_cons,List.intercalate_cons_cons,List.append_assoc,List.append_assoc] at same
          obtain ⟨equal,same⟩ := runs_same (· != ',') _ _ _ _ same (plain _ value) (plain _ value') (comma _) (comma _)
          rw [equal,ih _ (.cons next' later') (List.append_cancel_left same)]

theorem constObject_members (enumName : Text) (one other : List Text)
    (same : constObject enumName one = constObject enumName other) :
    [',',' '].intercalate one = [',',' '].intercalate other :=
  List.append_cancel_left (List.append_cancel_right same)

section Claim
variable (checks : Bool) (words : Words) (e : Enum)

/-- Wherever the conversion comes to the enum, it puts the object in its place and goes on after it. -/
def Assigns : Prop :=
  ∀ past rest, (convertEnums checks words.isWord).apply past (e.text ++ rest) =
    ((convertEnums checks words.isWord).apply (e.text.reverse ++ past) rest).map (e.object ++ ·)

/-- The name is one of the expression, and the members come where the count has come to. -/
structure Regular : Prop where
  named : ∀ c ∈ e.name.text, words.isWord c = true
  counts : Counts checks [] e.members

theorem convert_named (named : ∀ c ∈ e.name.text, words.isWord c = true) (past rest : Text) :
    (convertEnums checks words.isWord).apply past (e.text ++ rest) =
      ((enumMembers checks 0 (e.members.map Member.core)).map (constObject e.name.text)).bind (fun fresh =>
        ((convertEnums checks words.isWord).apply (e.text.reverse ++ past) rest).map (fresh ++ ·)) := by
  have filled : e.text ≠ [] := by simp [Enum.text]
  rw [Trial.apply_found _ past rest e.text e.captures filled (found words checks e named past rest),← members_body]
  rfl

/-- Where the name is not, the text goes on as it was. -/
theorem convert_unnamed (unnamed : ¬∀ c ∈ e.name.text, words.isWord c = true) (past rest converted : Text)
    (ends : (convertEnums checks words.isWord).apply past (e.text ++ rest) = some converted) :
    converted.head? = some 'e' := by
  have nowhere : (convertEnums checks words.isWord).regex.ways ⟨past,e.text ++ rest,[]⟩ = [] :=
    List.eq_nil_iff_forall_not_mem.mpr (fun last way => unnamed (named_of_way words checks e past rest last way))
  obtain ⟨tail,text⟩ : ∃ tail, e.text ++ rest = 'e' :: tail := ⟨_,e.text_append rest⟩
  rw [text] at nowhere ends
  rw [Trial.apply_cons _ past tail 'e' nowhere] at ends
  obtain ⟨later,_,rfl⟩ := Option.map_eq_some_iff.mp ends
  rfl

/-- The conversion of the whole body. -/
theorem enumMembers_all : enumMembers checks 0 (e.members.map Member.core) = some (assigned (-1) e.members) ↔
    Counts checks [] e.members := by
  have counted := enumMembers_iff checks [] e.members (fun _ => by decide)
  have start : wrapI32 (reached [] + 1) = 0 := by decide
  have first : previous [] = -1 := rfl
  rwa [start,first] at counted

theorem regular_of_assigns (assigns : Assigns checks words e) : Regular checks words e := by
  have alone := assigns [] []
  rw [Trial.apply_nil,Option.map_some,List.append_nil e.object] at alone
  have named : ∀ c ∈ e.name.text, words.isWord c = true := by
    by_contra unnamed
    have head := convert_unnamed checks words e unnamed [] [] e.object alone
    have other : e.object.head? = some 'c' := rfl
    rw [other,Option.some_inj] at head
    exact absurd head (by decide)
  refine ⟨named,(enumMembers_all checks e).mp ?_⟩
  rw [convert_named checks words e named,Trial.apply_nil] at alone
  obtain ⟨fresh,converted,same⟩ := Option.bind_eq_some_iff.mp alone
  obtain ⟨texts,made,rfl⟩ := Option.map_eq_some_iff.mp converted
  rw [Option.map_some,Option.some_inj,List.append_nil] at same
  rw [made,intercalate_made e.members texts _ (made_enumMembers checks 0 e.members texts made)
    (made_assigned (-1) e.members) (constObject_members e.name.text texts _ same)]

theorem assigns_of_regular (regular : Regular checks words e) : Assigns checks words e := by
  intro past rest
  rw [convert_named checks words e regular.named past rest,(enumMembers_all checks e).mpr regular.counts]
  rfl

/-- The members get the values of TypeScript, and nothing panics, exactly where the enum is regular. -/
theorem convertEnums_assigns_iff : Assigns checks words e ↔ Regular checks words e :=
  ⟨regular_of_assigns checks words e,assigns_of_regular checks words e⟩

end Claim

/-! Enums that are not regular. -/

def asciiWords : Words where
  isWord c := (Addresses.digitValue 36 c).isSome || c = '_'
  dark c word := by
    have firm : Firm c := by
      rcases Bool.or_eq_true_iff.mp word with letter | underscore
      · obtain ⟨n,digit⟩ := Option.isSome_iff_exists.mp letter
        exact firm_digit 36 c n digit
      · rw [of_decide_eq_true underscore]
        decide
    exact ⟨firm.1,firm.2.2.2.1⟩

def noBlank : Blank := ⟨[],rfl⟩

def single : Blank := ⟨[' '],rfl⟩

def letter (c : Char) (firm : Firm c) : Identifier := ⟨[c],List.cons_ne_nil c [],by simpa using firm⟩

/-- The text of an integer as it is. -/
def given (text : Text) (value : Int) (reads : integerValue text = some value) : Option Initialiser :=
  some ⟨single,single,text,value,reads⟩

/-- `enum E { A = …, B }` -/
def enumOf (name : Identifier) (initialiser : Option Initialiser) : Enum where
  space := single
  apart := List.cons_ne_nil ' ' []
  name := name
  gap := single
  members := [⟨single,letter 'A' (by decide),initialiser,noBlank⟩,⟨single,letter 'B' (by decide),none,single⟩]
  trailing := none

example : (enumOf (letter 'E' (by decide)) (given "0x10".toList 16 (by decide))).text =
    "enum E \x7b A = 0x10, B \x7d".toList := by
  decide

example : (enumOf (letter 'E' (by decide)) (given "0x10".toList 16 (by decide))).object =
    "const E = \x7b A: 0x10, B: 17 \x7d;".toList := by
  decide

/-- A number that is no `i32`, one in another radix, the greatest `i32`, and a name with a dollar sign. -/
theorem enums_miscounted :
    ¬Assigns false asciiWords (enumOf (letter 'E' (by decide)) (given "2147483648".toList 2147483648 (by decide))) ∧
    ¬Assigns false asciiWords (enumOf (letter 'E' (by decide)) (given "0x10".toList 16 (by decide))) ∧
    ¬Assigns true asciiWords (enumOf (letter 'E' (by decide)) (given "2147483647".toList 2147483647 (by decide))) ∧
    ¬Assigns false asciiWords (enumOf (letter '$' (by decide)) none) := by
  refine ⟨fun assigns => ?_,fun assigns => ?_,fun assigns => ?_,fun assigns => ?_⟩
  · have regular := regular_of_assigns _ _ _ assigns
    exact absurd (regular.counts.follows [_] _ [] rfl rfl) (by decide +kernel)
  · have regular := regular_of_assigns _ _ _ assigns
    exact absurd (regular.counts.follows [_] _ [] rfl rfl) (by decide +kernel)
  · have regular := regular_of_assigns _ _ _ assigns
    exact absurd (regular.counts.small rfl [_] [_] rfl) (by decide +kernel)
  · have regular := regular_of_assigns _ _ _ assigns
    exact absurd (regular.named '$' List.mem_cons_self) (by decide +kernel)

end ClawKernel.Script.Enums
