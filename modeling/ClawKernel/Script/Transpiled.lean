import ClawKernel.Lib.JsLiterals
import ClawKernel.Script.Transpile

/-! What the transpiler leaves alone: sources that it returns as they are, and the literals and
comments of a source whose rewritten matches stand in its code.
-/
namespace ClawKernel.Script.Transpiled
open Lib Lib.JsLiterals Lib.Regex Lib.Rewriting
open Provider.Sse (isWhitespace trim)
open Tools.Validation (Text containsText splitOnce)
open Transpile

/-- Every text that a step takes away has one of these, and the conversion of enums keeps them all. -/
def telltale (c : Char) : Bool := c ∈ ['p','r','a','b','\x7b','[','<']

def isSemicolon (c : Char) : Bool := c = ';'

section Losing

theorem countP_pos (kind : Char → Bool) (text : Text) (some : ∃ c ∈ text, kind c = true) : 0 < text.countP kind :=
  List.countP_pos_iff.mpr some

/-- A step whose replacement has none of the characters, and whose matches all have one. -/
theorem loses_of_needs (stage : Stage) (kind : Char → Bool) (bare : ∀ found group, (stage.fresh found group).countP kind = 0)
    (needs : Needs (fun c => kind c = true) stage.regex) : stage.Loses kind := by
  rintro found fresh ⟨first,last,-,way,takes,rfl⟩ -
  rw [bare]
  exact countP_pos kind found (takes_needs _ stage.regex needs first last way found takes)

theorem loses_removed (items : List Regex) (text : String) (listed : word text ∈ items) (c : Char)
    (member : c ∈ text.toList) (tells : telltale c = true) : (removed items).Loses telltale :=
  loses_of_needs _ telltale (fun _ _ => rfl) (needs_concat _ items _ listed (needs_word _ text c member tells))

theorem loses_modifier (text : String) (c : Char) (member : c ∈ text.toList) (tells : telltale c = true) :
    (modifier text).Loses telltale :=
  loses_of_needs _ telltale (fun _ _ => (by decide : [' '].countP telltale = 0)) (needs_word _ text c member tells)

/-- A match is replaced by the group at its end. -/
theorem loses_last_group (items : List Regex) (index : Nat) (body : Regex) (plain : groupless body = true)
    (needs : Needs (fun c => telltale c = true) (concat items)) :
    (Stage.mk (concat (items ++ [.group index body])) (fun _ group => group index)).Loses telltale := by
  rintro found fresh ⟨first,last,-,way,takes,rfl⟩ -
  obtain ⟨front,taken,earlier,takes',captured,-,wanted⟩ := takes_last_group items index body plain first last way
  have some := countP_pos telltale front (wanted _ needs)
  have whole := takes_unique first last found _ takes takes'
  have group : groups last index = taken := by rw [groups,captured,List.lookup_cons_self,Option.getD_some]
  rw [whole,List.countP_append]
  simp only [group]
  omega

theorem loses_generics : genericParams.Loses telltale :=
  loses_last_group [literal '<',name,.star (concat [literal ',',spaces,name]),literal '>'] 1 (.seq spaces (literal '('))
    rfl (needs_concat _ _ (literal '<') List.mem_cons_self (needs_literal _ '<' rfl))

theorem loses_angles : angleAssertions.Loses telltale :=
  loses_last_group [literal '<',.group 1 name,literal '>'] 2 (.one (fun c => isNameStart c || c = '$'))
    rfl (needs_concat _ _ (literal '<') List.mem_cons_self (needs_literal _ '<' rfl))

theorem telltale_of_contains (text : Text) (part : String) (c : Char) (member : c ∈ part.toList) (tells : telltale c = true)
    (contains : containsText text part = true) : 0 < text.countP telltale :=
  countP_pos telltale text ⟨c,(of_decide_eq_true contains : part.toList <:+: text).subset member,tells⟩

theorem telltale_of_type (text : Text) (looks : looksLikeType text = true) : 0 < text.countP telltale := by
  simp only [looksLikeType,Bool.or_eq_true] at looks
  rcases looks with ((((number | string) | boolean) | brace) | bracket) | angle
  · exact telltale_of_contains text _ 'b' (by decide) rfl number
  · exact telltale_of_contains text _ 'r' (by decide) rfl string
  · exact telltale_of_contains text _ 'b' (by decide) rfl boolean
  · exact telltale_of_contains text _ '\x7b' (by decide) rfl brace
  · exact telltale_of_contains text _ '[' (by decide) rfl bracket
  · exact telltale_of_contains text _ '<' (by decide) rfl angle

/-- An annotation is taken away with the type that it looked like. -/
theorem loses_params : removeParamTypes.Loses telltale := by
  rintro found fresh ⟨first,last,bare,way,takes,rfl⟩ differs
  rw [removeParamTypes] at way differs ⊢
  simp only at way differs ⊢
  obtain ⟨named,here,there⟩ := (mem_concat_cons _ _ first last).mp way
  obtain ⟨taken,one,captured⟩ := captures_of_group 1 _ rfl first named here
  obtain ⟨front,type,earlier,other,typed,only,-⟩ :=
    takes_last_group [spaces,literal ':',spaces] 2 typeName rfl named last there
  rw [only rfl,captured,bare] at typed
  have whole := takes_unique first last found _ takes (takes_trans _ _ _ _ _ one other)
  have first : groups last 1 = taken := by rw [groups,typed]; rfl
  have second : groups last 2 = type := by rw [groups,typed]; rfl
  rw [first,second] at differs ⊢
  by_cases looks : looksLikeType type = true
  · have some := telltale_of_type type looks
    rw [if_pos looks,whole,List.countP_append,List.countP_append]
    omega
  · rw [if_neg looks] at differs
    exact absurd rfl differs

theorem loses_returns : returnTypes.Loses (· = ':') :=
  loses_of_needs _ _ (fun _ _ => (by decide : [')',' ','\x7b'].countP (fun c => decide (c = ':')) = 0))
    (needs_concat _ _ (literal ':') (by simp) (needs_literal _ ':' (by decide)))

theorem atMost_returns : returnTypes.AtMost telltale := by
  rintro found fresh ⟨first,last,-,way,takes,rfl⟩
  have brace : Needs (fun c => telltale c = true) returnTypes.regex :=
    needs_concat _ _ (literal '\x7b') (by simp) (needs_literal _ '\x7b' rfl)
  exact countP_pos telltale found (takes_needs _ _ brace first last way found takes)

theorem holds_returns : returnTypes.Holds isSemicolon := by
  rintro found fresh ⟨first,last,-,way,takes,rfl⟩
  have name (c : Char) (start : isNameStart c = true) : c ≠ ';' := by
    rintro rfl
    exact absurd start (by decide)
  have type (c : Char) (inside : isTypeChar c = true) : c ≠ ';' := by
    rintro rfl
    exact absurd inside (by decide)
  have blank (c : Char) (inside : isWhitespace c = true) : c ≠ ';' := by
    rintro rfl
    exact absurd inside (by decide)
  have mark (d : Char) (other : d ≠ ';') (c : Char) (same : (c == d) = true) : c ≠ ';' := eq_of_beq same ▸ other
  have only : Only (· ≠ ';') returnTypes.regex := by
    refine ⟨mark ')' (by decide),blank,mark ':' (by decide),blank,⟨name,type⟩,blank,mark '\x7b' (by decide),trivial⟩
  obtain ⟨taken,takes',none⟩ := takes_only (· ≠ ';') _ only first last way
  rw [takes_unique first last found taken takes takes']
  have absent : taken.countP isSemicolon = 0 :=
    List.countP_eq_zero.mpr (fun c inside same => none c inside (of_decide_eq_true same))
  rw [absent]
  exact (by decide : [')',' ','\x7b'].countP isSemicolon = 0)

end Losing

/-! Enums: a semicolon more, and of other characters as many. -/

section Enums
variable (isWord : Char → Bool)

/-- The characters that the conversion adds or drops. -/
def isLoose (c : Char) : Bool := isWhitespace c || c.isDigit || c ∈ [',','=',':','-','e','n','u','m','c','o','s','t']

variable (kind : Char → Bool) (steady : ∀ c, kind c = true → isLoose c = false)
include steady

theorem countP_loose (text : Text) (loose : text.all isLoose = true) : text.countP kind = 0 := by
  refine List.countP_eq_zero.mpr (fun c inside is => ?_)
  have firm := steady c is
  rw [List.all_eq_true.mp loose c inside] at firm
  cases firm

theorem countP_dropWhile (p : Char → Bool) (loose : ∀ c, p c = true → isLoose c = true) (text : Text) :
    (text.dropWhile p).countP kind = text.countP kind := by
  have whole := congrArg (List.countP kind) (List.takeWhile_append_dropWhile (p := p) (l := text))
  have none := countP_loose kind steady (text.takeWhile p)
    (List.all_eq_true.mpr (fun c inside => loose c (List.mem_takeWhile_imp inside)))
  rw [List.countP_append,none,Nat.zero_add] at whole
  exact whole

theorem countP_trim (text : Text) : (trim text).countP kind = text.countP kind := by
  have blank (c : Char) (is : isWhitespace c = true) : isLoose c = true := by rw [isLoose,is,Bool.true_or,Bool.true_or]
  rw [trim,List.rdropWhile,List.countP_reverse,countP_dropWhile kind steady _ blank,List.countP_reverse,
    countP_dropWhile kind steady _ blank]

theorem countP_splitOnce (member before after : Text) (split : splitOnce '=' member = some (before,after)) :
    member.countP kind = before.countP kind + after.countP kind := by
  have equals : kind '=' = false := by
    by_contra is
    exact absurd (steady '=' (Bool.not_eq_false _ ▸ is)) (by decide)
  unfold splitOnce at split
  split at split
  · rename_i member'
    obtain ⟨front,back,rfl,clean⟩ := List.eq_append_cons_of_mem member'
    have all : ∀ c ∈ front, decide (c ≠ '=') = true := fun c inside => decide_eq_true (fun same => clean (same ▸ inside))
    rw [List.takeWhile_append_of_pos all,List.dropWhile_append_of_pos all] at split
    obtain ⟨rfl,rfl⟩ := Prod.mk.inj (Option.some_inj.mp split)
    simp [equals]
  · cases split

theorem countP_number (n : Int) : (toString n).toList.countP kind = 0 := by
  have digits (n : Nat) : ∀ c ∈ (Nat.repr n).toList, isLoose c = true := by
    intro c inside
    have digit : c.isDigit = true := by
      rw [Nat.toList_repr] at inside
      exact Nat.isDigit_of_mem_toDigits (by decide) (by decide) inside
    rw [isLoose,digit,Bool.or_true,Bool.true_or]
  refine countP_loose kind steady _ (List.all_eq_true.mpr ?_)
  cases n with
  | ofNat n => exact digits n
  | negSucc n =>
    intro c inside
    have shape : (toString (Int.negSucc n)).toList = "-".toList ++ (Nat.repr (n + 1)).toList := String.toList_append
    rw [shape] at inside
    cases List.mem_append.mp inside with
    | inl first => exact List.mem_singleton.mp first ▸ by decide
    | inr later => exact digits (n + 1) c later

theorem countP_enumMember (counter : Int) (member : Text) :
    (enumMember counter member).2.countP kind = member.countP kind := by
  have mark : [':',' '].countP kind = 0 := countP_loose kind steady _ (by decide)
  unfold enumMember
  cases split : splitOnce '=' member with
  | none => simp only [List.countP_append,mark,countP_number kind steady,Nat.add_zero]
  | some parts =>
    obtain ⟨memberName,value⟩ := parts
    simp only [List.countP_append,mark,countP_trim kind steady,Nat.add_zero]
    exact (countP_splitOnce kind steady member memberName value split).symm

theorem countP_enumMembers (counter : Int) (l : List Text) :
    ([',',' '].intercalate (enumMembers counter l)).countP kind = l.flatten.countP kind := by
  have mark : [',',' '].countP kind = 0 := countP_loose kind steady _ (by decide)
  induction l generalizing counter with
  | nil => rfl
  | cons member rest ih =>
    have here := countP_enumMember kind steady counter member
    have later := ih (enumMember counter member).1
    rw [enumMembers,List.flatten_cons,List.countP_append,← here,← later]
    cases enumMembers (enumMember counter member).1 rest with
    | nil => rw [List.intercalate_singleton,List.intercalate_nil]; rfl
    | cons next more => rw [List.intercalate_cons_cons,List.countP_append,List.countP_append,mark,Nat.add_zero]

theorem countP_members (body : Text) : (members body).flatten.countP kind = body.countP kind := by
  have comma : ∀ c, (c == ',') = true → kind c = false := by
    intro c same
    by_contra is
    have firm := steady c (Bool.not_eq_false _ ▸ is)
    rw [eq_of_beq same] at firm
    exact absurd firm (by decide)
  have trims : ((Pieces.pieces (· == ',') body).map trim).map (List.countP kind) =
      (Pieces.pieces (· == ',') body).map (List.countP kind) := by
    rw [List.map_map]
    exact List.map_congr_left (fun piece _ => countP_trim kind steady piece)
  rw [members,List.flatten_filter_not_isEmpty,List.countP_flatten,trims]
  exact Pieces.countP_pieces (· == ',') kind comma body
omit steady in
theorem countP_between (a b c enumName inner : Text) (x y : Nat) (front : a.countP kind = 0) (middle : b.countP kind = x)
    (back : c.countP kind = y) : (a ++ enumName ++ b ++ inner ++ c).countP kind =
    enumName.countP kind + x + inner.countP kind + y := by
  rw [List.countP_append,List.countP_append,List.countP_append,List.countP_append,front,middle,back,Nat.zero_add]

theorem countP_constObject (enumName body : Text) : (constObject enumName body).countP kind =
    enumName.countP kind + ['\x7b'].countP kind + body.countP kind + (['\x7d'].countP kind + [';'].countP kind) := by
  have blank : [' '].countP kind = 0 := countP_loose kind steady _ (by decide)
  have opens : ([' ','=',' '] ++ ['\x7b'] ++ [' ']).countP kind = ['\x7b'].countP kind := by
    rw [List.countP_append,List.countP_append,blank,countP_loose kind steady [' ','=',' '] (by decide),Nat.zero_add,
      Nat.add_zero]
  have closes : ([' '] ++ ['\x7d'] ++ [';']).countP kind = ['\x7d'].countP kind + [';'].countP kind := by
    rw [List.countP_append,List.countP_append,blank,Nat.zero_add]
  have counted := countP_between kind "const ".toList " = \x7b ".toList " \x7d;".toList enumName
    ([',',' '].intercalate (enumMembers 0 (members body))) _ _ (countP_loose kind steady _ (by decide)) opens closes
  rw [countP_enumMembers kind steady,countP_members kind steady] at counted
  exact counted

omit steady in
/-- What an enum consists of. -/
theorem enum_found (isWord : Char → Bool) (first last : Place) (bare : first.captures = []) (found : Text)
    (way : last ∈ (convertEnums isWord).regex.ways first) (takes : Takes first last found) :
    ∃ blank enumName gap body, found = "enum".toList ++ (blank ++ (enumName ++ (gap ++ (['\x7b'] ++ (body ++ ['\x7d']))))) ∧
      (∀ c ∈ blank, isWhitespace c = true) ∧ (∀ c ∈ gap, isWhitespace c = true) ∧
      (∀ c ∈ enumName, isWord c = true) ∧ groups last 1 = enumName ∧ groups last 2 = body := by
  obtain ⟨p1,keyword,way⟩ := (mem_concat_cons _ _ first last).mp way
  obtain ⟨p2,blank,way⟩ := (mem_concat_cons _ _ p1 last).mp way
  obtain ⟨p3,named,way⟩ := (mem_concat_cons _ _ p2 last).mp way
  obtain ⟨p4,gap,way⟩ := (mem_concat_cons _ _ p3 last).mp way
  obtain ⟨p5,opens,way⟩ := (mem_concat_cons _ _ p4 last).mp way
  obtain ⟨p6,inner,way⟩ := (mem_concat_cons _ _ p5 last).mp way
  obtain ⟨p7,closes,way⟩ := (mem_concat_cons _ _ p6 last).mp way
  rw [concat,Regex.ways,List.mem_singleton] at way
  subst way
  obtain ⟨t2,takes2,blank2⟩ :=
    takes_only (fun c => isWhitespace c = true) (plus space) ⟨fun _ is => is,fun _ is => is⟩ p1 p2 blank
  obtain ⟨enumName,takes3,captured3⟩ := captures_of_group 1 (plus (.one isWord)) rfl p2 p3 named
  obtain ⟨t3,takes3',words⟩ := takes_only (fun c => isWord c = true) (.group 1 (plus (.one isWord)))
    ⟨fun _ is => is,fun _ is => is⟩ p2 p3 named
  rw [takes_unique p2 p3 t3 enumName takes3' takes3] at words
  obtain ⟨t4,takes4,blank4⟩ := takes_only (fun c => isWhitespace c = true) spaces (fun _ is => is) p3 p4 gap
  obtain ⟨body,takes6,captured6⟩ := captures_of_group 2 (.star (.one (· != '\x7d'))) rfl p5 p6 inner
  have captures : last.captures = [(2,body),(1,enumName)] := by
    rw [captures_of_way _ rfl p6 last closes,captured6,captures_of_way _ rfl p4 p5 opens,captures_of_way _ rfl p3 p4 gap,
      captured3,captures_of_way _ rfl p1 p2 blank,captures_of_way (word "enum") (by decide) first p1 keyword,bare]
  have chain := takes_trans _ _ _ _ _ (takes_word "enum" first p1 keyword) (takes_trans _ _ _ _ _ takes2
    (takes_trans _ _ _ _ _ takes3 (takes_trans _ _ _ _ _ takes4 (takes_trans _ _ _ _ _ (takes_literal _ p4 p5 opens)
      (takes_trans _ _ _ _ _ takes6 (takes_literal _ p6 last closes))))))
  refine ⟨t2,enumName,t4,body,takes_unique first last found _ takes chain,blank2,blank4,words,?_,?_⟩
  · rw [groups,captures]
    rfl
  · rw [groups,captures]
    rfl

theorem countP_enum (isWord : Char → Bool) (found fresh : Text) (matched : (convertEnums isWord).Matches found fresh) :
    fresh.countP kind = found.countP kind + [';'].countP kind := by
  obtain ⟨first,last,bare,way,takes,rfl⟩ := matched
  obtain ⟨blank,enumName,gap,body,whole,white,white',-,named,inner⟩ := enum_found isWord first last bare found way takes
  have none (text : Text) (all : ∀ c ∈ text, isWhitespace c = true) : text.countP kind = 0 :=
    countP_loose kind steady text (List.all_eq_true.mpr (fun c is => by rw [isLoose,all c is,Bool.true_or,Bool.true_or]))
  have fresh : (convertEnums isWord).fresh found (groups last) = constObject (groups last 1) (groups last 2) := rfl
  have split (a b c d e f g : Text) (front : a.countP kind = 0) : (a ++ (b ++ (c ++ (d ++ (e ++ (f ++ g)))))).countP kind =
      b.countP kind + c.countP kind + d.countP kind + e.countP kind + f.countP kind + g.countP kind := by
    simp only [List.countP_append,front,Nat.zero_add,Nat.add_assoc]
  rw [fresh,named,inner,countP_constObject kind steady,whole,
    split "enum".toList blank enumName gap _ body _ (countP_loose kind steady _ (by decide)),none blank white,
    none gap white']
  omega

end Enums

section Whole
variable (isWord : Char → Bool)

theorem telltale_firm (c : Char) (tells : telltale c = true) : isLoose c = false := by
  simp only [telltale,List.mem_cons,List.not_mem_nil,or_false,decide_eq_true_eq] at tells
  rcases tells with rfl | rfl | rfl | rfl | rfl | rfl | rfl <;> decide

theorem semicolon_firm (c : Char) (is : isSemicolon c = true) : isLoose c = false := by
  rw [of_decide_eq_true is]
  decide

theorem holds_enums : (convertEnums isWord).Holds telltale := by
  intro found fresh matched
  rw [countP_enum telltale telltale_firm isWord found fresh matched]
  exact Nat.add_zero _

theorem gains_enums : (convertEnums isWord).Gains isSemicolon := by
  intro found fresh matched _
  rw [countP_enum isSemicolon semicolon_firm isWord found fresh matched]
  exact Nat.lt_succ_self _

/-- The steps before that of return types, and those after it but the last. -/
def early : List Stage := [typeImports,interfaces isWord,typeAliases isWord,genericParams,removeParamTypes]

def late : List Stage :=
  [asAssertions,angleAssertions,modifier "readonly ",modifier "public ",modifier "private ",modifier "protected ",
    modifier "declare ",modifier "abstract "]

theorem stages_eq : stages isWord = early isWord ++ returnTypes :: late ++ [convertEnums isWord] := rfl

theorem early_loses : ∀ stage ∈ early isWord, stage.Loses telltale := by
  intro stage member
  simp only [early,List.mem_cons,List.not_mem_nil,or_false] at member
  rcases member with rfl | rfl | rfl | rfl | rfl
  · exact loses_removed _ "import" List.mem_cons_self 'p' (by decide) rfl
  · exact loses_removed _ "interface" List.mem_cons_self 'r' (by decide) rfl
  · exact loses_removed _ "type" List.mem_cons_self 'p' (by decide) rfl
  · exact loses_generics
  · exact loses_params

theorem late_loses : ∀ stage ∈ late, stage.Loses telltale := by
  intro stage member
  simp only [late,List.mem_cons,List.not_mem_nil,or_false] at member
  rcases member with rfl | rfl | rfl | rfl | rfl | rfl | rfl | rfl
  · exact loses_removed _ "as" (by simp) 'a' (by decide) rfl
  · exact loses_angles
  · exact loses_modifier _ 'r' (by decide) rfl
  · exact loses_modifier _ 'p' (by decide) rfl
  · exact loses_modifier _ 'p' (by decide) rfl
  · exact loses_modifier _ 'p' (by decide) rfl
  · exact loses_modifier _ 'r' (by decide) rfl
  · exact loses_modifier _ 'r' (by decide) rfl

theorem strip_eq (source : Text) : stripTypescriptTypes isWord source =
    (convertEnums isWord).apply (late.foldl (fun text stage => stage.apply text)
      (returnTypes.apply ((early isWord).foldl (fun text stage => stage.apply text) source))) := by
  rw [stripTypescriptTypes,stages_eq,List.foldl_append,List.foldl_append,List.foldl_cons,List.foldl_cons,List.foldl_nil]

/-- A source that comes back unchanged. The steps take characters away that no later one puts back, but for a return
type; and what the last one adds, no return type has taken away. -/
theorem calm_of_strip (source : Text) (same : stripTypescriptTypes isWord source = source) :
    ∀ stage ∈ stages isWord, stage.rewrites source = false := by
  rw [strip_eq] at same
  have first := calm_of_level telltale (early isWord) (early_loses isWord) source
  generalize (early isWord).foldl (fun text stage => stage.apply text) source = a at same first
  have dropped := countP_atMost returnTypes telltale atMost_returns a
  have semicolons := countP_holds returnTypes isSemicolon holds_returns a
  have colons := countP_loses returnTypes (· = ':') loses_returns a
  generalize returned : returnTypes.apply a = b at same dropped semicolons colons
  have second := calm_of_level telltale late late_loses b
  have fewer := countP_foldl_le telltale late late_loses b
  generalize late.foldl (fun text stage => stage.apply text) b = c at same second fewer
  have kept := countP_holds (convertEnums isWord) telltale (holds_enums isWord) c
  have gained := countP_gains (convertEnums isWord) isSemicolon (gains_enums isWord) c
  rw [same] at kept gained
  obtain ⟨calmEarly,rfl⟩ := first (by omega)
  obtain ⟨calmLate,rfl⟩ := second (by omega)
  have calmEnums : (convertEnums isWord).rewrites c = false := by
    by_contra rewritten
    have more := gained (Bool.not_eq_false _ ▸ rewritten)
    omega
  obtain rfl : c = a := (apply_of_calm _ c calmEnums).symm.trans same
  have calmReturns : returnTypes.rewrites c = false := by
    by_contra rewritten
    exact absurd (colons (Bool.not_eq_false _ ▸ rewritten)) (Nat.lt_irrefl _)
  rw [stages_eq]
  simp only [List.forall_mem_append,List.forall_mem_cons,List.not_mem_nil,false_implies,implies_true,and_true]
  exact ⟨⟨calmEarly,calmReturns,calmLate⟩,calmEnums⟩

theorem strip_of_calm (stages : List Stage) (source : Text) (calm : ∀ stage ∈ stages, stage.rewrites source = false) :
    stages.foldl (fun text stage => stage.apply text) source = source := by
  induction stages with
  | nil => rfl
  | cons stage rest ih =>
    obtain ⟨here,later⟩ := List.forall_mem_cons.mp calm
    rw [List.foldl_cons,apply_of_calm stage source here]
    exact ih later

end Whole

/-! Where the matches of a step may stand, so that the literals are read as before. -/

section Kept

theorem plain_of (p : Char → Bool) (none : ['/','"','\'','\x60','\x7b','\x7d'].all (fun c => !p c) = true) (c : Char)
    (is : p c = true) : isPlain c = true := by
  refine decide_eq_true (fun member => ?_)
  have apart := List.all_eq_true.mp none c member
  rw [is] at apart
  cases apart

theorem plain_text (text : Text) (all : text.all isPlain = true) : ∀ c ∈ text, isPlain c = true :=
  List.all_eq_true.mp all

theorem plain_blank (c : Char) (is : isWhitespace c = true) : isPlain c = true := plain_of isWhitespace (by decide) c is

/-- The match begins in code. -/
def begins (s : Scanner) (_ : Text) : Bool := s.inCode

/-- The match stands in code, and closes what braces it opens in a template. -/
def stays (s : Scanner) (found : Text) : Bool := s.inCode && s.reads found = s

theorem respects_removed (items : List Regex) : Respects Scanner.read (removed items) stays := by
  rintro found fresh ⟨first,last,-,way,takes,rfl⟩ s meets
  exact (of_decide_eq_true (Bool.and_eq_true_iff.mp meets).2).symm

/-- A step whose matches, and what replaces them, are of plain characters. -/
theorem respects_plain (stage : Stage) (only : Only (fun c => isPlain c = true) stage.regex)
    (fresh : ∀ found group, (∀ c ∈ found, isPlain c = true) → (∀ index, ∀ c ∈ group index, isPlain c = true) →
      ∀ c ∈ stage.fresh found group, isPlain c = true) : Respects Scanner.read stage begins := by
  rintro found _ ⟨first,last,bare,way,takes,rfl⟩ s code
  obtain ⟨taken,takes',plain⟩ := takes_only _ stage.regex only first last way
  rw [takes_unique first last taken found takes' takes] at plain
  have captured := captures_only _ stage.regex only first last way (by rw [bare]; exact List.forall_mem_nil _)
  have group : ∀ index, ∀ c ∈ groups last index, isPlain c = true := by
    intro index c inside
    unfold groups at inside
    cases here : last.captures.lookup index with
    | none =>
      rw [here] at inside
      cases inside
    | some text =>
      rw [here] at inside
      obtain ⟨before,after,parts,-⟩ := List.lookup_eq_some_iff.mp here
      exact captured (index,text) (parts ▸ List.mem_append_right before List.mem_cons_self) c inside
  exact (reads_plain s code _ (fresh found _ plain group)).trans (reads_plain s code found plain).symm

theorem plain_nameStart (c : Char) (is : isNameStart c = true) : isPlain c = true :=
  plain_of isNameStart (by decide) c is

theorem plain_typeChar (c : Char) (is : isTypeChar c = true) : isPlain c = true := plain_of isTypeChar (by decide) c is

theorem only_name : Only (fun c => isPlain c = true) name :=
  ⟨plain_nameStart,plain_of isNameChar (by decide)⟩

theorem only_type : Only (fun c => isPlain c = true) typeName := ⟨plain_nameStart,plain_typeChar⟩

theorem only_literal (c : Char) (plain : isPlain c = true) : Only (fun d => isPlain d = true) (literal c) :=
  fun _ same => eq_of_beq same ▸ plain

theorem only_word (text : String) (plain : text.toList.all isPlain = true) :
    Only (fun c => isPlain c = true) (word text) := by
  rw [List.all_eq_true] at plain
  unfold word
  generalize text.toList = chars at plain ⊢
  induction chars with
  | nil => trivial
  | cons c rest ih =>
    obtain ⟨here,later⟩ := List.forall_mem_cons.mp plain
    exact ⟨only_literal c here,ih later⟩

theorem respects_generics : Respects Scanner.read genericParams begins := by
  refine respects_plain genericParams ⟨only_literal '<' rfl,only_name,?_,only_literal '>' rfl,
    ⟨plain_blank,only_literal '(' rfl⟩,trivial⟩ (fun _ _ _ group => group 1)
  exact ⟨only_literal ',' rfl,plain_blank,only_name,trivial⟩

theorem respects_params : Respects Scanner.read removeParamTypes begins := by
  refine respects_plain removeParamTypes ⟨⟨plain_of _ (by decide),plain_of _ (by decide)⟩,plain_blank,only_literal ':' rfl,
    plain_blank,only_type,trivial⟩ ?_
  intro found group plain captured
  rw [removeParamTypes]
  dsimp only
  split_ifs
  · exact captured 1
  · exact plain

theorem respects_assertions : Respects Scanner.read asAssertions begins :=
  respects_plain asAssertions ⟨⟨plain_blank,plain_blank⟩,only_word "as" (by decide),⟨plain_blank,plain_blank⟩,plain_nameStart,
    ⟨plain_typeChar,plain_typeChar⟩,trivial⟩ (fun _ _ _ _ => List.forall_mem_nil _)

theorem respects_angles : Respects Scanner.read angleAssertions begins :=
  respects_plain angleAssertions ⟨only_literal '<' rfl,only_name,only_literal '>' rfl,plain_of _ (by decide),trivial⟩
    (fun _ _ _ group => group 2)

theorem respects_modifier (text : String) (plain : text.toList.all isPlain = true) :
    Respects Scanner.read (modifier text) begins :=
  respects_plain (modifier text) (only_word text plain) (fun _ _ _ _ => List.forall_mem_singleton.mpr rfl)

/-- A return type opens the brace that its match ends with. -/
theorem respects_returns : Respects Scanner.read returnTypes begins := by
  rintro found _ ⟨first,last,-,way,takes,rfl⟩ s code
  have parts : returnTypes.regex =
      concat ([literal ')',spaces,literal ':',spaces,typeName,spaces] ++ [literal '\x7b']) := rfl
  rw [parts] at way
  obtain ⟨middle,front,brace⟩ := (mem_concat_append _ _ first last).mp way
  obtain ⟨reached,brace,done⟩ := (mem_concat_cons _ _ middle last).mp brace
  rw [concat,Regex.ways,List.mem_singleton] at done
  subst done
  have only : Only (fun c => isPlain c = true) (concat [literal ')',spaces,literal ':',spaces,typeName,spaces]) :=
    ⟨only_literal ')' rfl,plain_blank,only_literal ':' rfl,plain_blank,only_type,plain_blank,trivial⟩
  obtain ⟨taken,takes',plain⟩ := takes_only _ _ only first middle front
  have whole := takes_unique first last found _ takes (takes_trans _ _ _ _ _ takes' (takes_literal _ middle last brace))
  change s.reads ([')',' '] ++ ['\x7b']) = s.reads found
  rw [whole,reads_append,reads_append,reads_plain s code taken plain,reads_plain s code [')',' '] (plain_text _ rfl)]

end Kept

/-! An enum reads as the object that is made of it, where it is cut in code. -/

section Cuts

/-- What the conversion carries over of a member. -/
def memberParts (member : Text) : List Text :=
  match splitOnce '=' member with
  | some (memberName,value) => [trim memberName,trim value]
  | none => [member]

def enumParts (body : Text) : List Text :=
  (Pieces.pieces (· == ',') body).flatMap (fun piece => memberParts (trim piece))

def enumBody (found : Text) : Text := ((found.dropWhile (· != '\x7b')).drop 1).dropLast

/-- Each part, read after those before it, ends in code. -/
def endInCode : Scanner → List Text → Bool
  | _, [] => true
  | s, part :: rest => (s.reads part).inCode && endInCode (s.reads part) rest

/-- The enum begins and ends in code, and so do the parts of its members. -/
def cutInCode (s : Scanner) (found : Text) : Bool :=
  s.inCode && endInCode (s.read '\x7b') (enumParts (enumBody found)) && (s.reads found).inCode

theorem endInCode_append (parts more : List Text) (s : Scanner) :
    endInCode s (parts ++ more) = (endInCode s parts && endInCode (parts.foldl Scanner.reads s) more) := by
  induction parts generalizing s with
  | nil => rfl
  | cons part rest ih =>
    rw [List.cons_append,endInCode,endInCode,ih,Bool.and_assoc]
    rfl

theorem inCode_parts (parts : List Text) (s : Scanner) (code : s.inCode = true) (ends : endInCode s parts = true) :
    (parts.foldl Scanner.reads s).inCode = true := by
  induction parts generalizing s with
  | nil => exact code
  | cons part rest ih =>
    obtain ⟨here,later⟩ := Bool.and_eq_true_iff.mp ends
    exact ih (s.reads part) here later

/-- In code the text reads as these parts of it. -/
def Reads (text : Text) (parts : List Text) : Prop :=
  ∀ s : Scanner, s.inCode = true → endInCode s parts = true → s.reads text = parts.foldl Scanner.reads s

theorem reads_self (text : Text) : Reads text [text] := fun _ _ _ => rfl

theorem reads_nothing (text : Text) (plain : ∀ c ∈ text, isPlain c = true) : Reads text [] :=
  fun s code _ => reads_plain s code text plain

theorem reads_both (text more : Text) (parts others : List Text) (here : Reads text parts) (there : Reads more others) :
    Reads (text ++ more) (parts ++ others) := by
  intro s code ends
  rw [endInCode_append] at ends
  obtain ⟨first,last⟩ := Bool.and_eq_true_iff.mp ends
  rw [reads_append,here s code first,there _ (inCode_parts parts s code first) last,List.foldl_append]

/-- The blanks at both ends are code. -/
theorem reads_trim (text : Text) : Reads text [trim text] := by
  have lead : ∀ c ∈ text.takeWhile isWhitespace, isPlain c = true :=
    fun c inside => plain_blank c (List.mem_takeWhile_imp inside)
  have tail : ∀ c ∈ ((text.dropWhile isWhitespace).reverse.takeWhile isWhitespace).reverse, isPlain c = true :=
    fun c inside => plain_blank c (List.mem_takeWhile_imp (List.mem_reverse.mp inside))
  have whole : text = text.takeWhile isWhitespace ++
      (trim text ++ ((text.dropWhile isWhitespace).reverse.takeWhile isWhitespace).reverse) := by
    rw [trim,List.rdropWhile,← List.reverse_append,List.takeWhile_append_dropWhile,List.reverse_reverse,
      List.takeWhile_append_dropWhile]
  have parts := reads_both _ _ _ _ (reads_nothing _ lead) (reads_both _ _ _ _ (reads_self (trim text)) (reads_nothing _ tail))
  rw [← whole] at parts
  exact parts

theorem reads_member (member : Text) : Reads member (memberParts member) := by
  unfold memberParts splitOnce
  split
  next memberName value split =>
    split_ifs at split with member'
    obtain ⟨front,back,rfl,clean⟩ := List.eq_append_cons_of_mem member'
    have all : ∀ c ∈ front, decide (c ≠ '=') = true := fun c inside => decide_eq_true (fun same => clean (same ▸ inside))
    rw [List.takeWhile_append_of_pos all,List.dropWhile_append_of_pos all] at split
    obtain ⟨rfl,rfl⟩ := Prod.mk.inj (Option.some_inj.mp split)
    have rest := reads_both _ _ _ _ (reads_nothing ['='] (plain_text _ rfl)) (reads_trim back)
    have parts := reads_both _ _ _ _ (reads_trim front) rest
    simpa using parts
  · exact reads_self member

theorem plain_number (n : Int) : ∀ c ∈ (toString n).toList, isPlain c = true := by
  have digits (n : Nat) : ∀ c ∈ (Nat.repr n).toList, isPlain c = true := by
    intro c inside
    rw [Nat.toList_repr] at inside
    exact plain_of Char.isDigit (by decide) c (Nat.isDigit_of_mem_toDigits (by decide) (by decide) inside)
  cases n with
  | ofNat n => exact digits n
  | negSucc n =>
    have shape : (toString (Int.negSucc n)).toList = "-".toList ++ (Nat.repr (n + 1)).toList := String.toList_append
    rw [shape]
    exact List.forall_mem_append.mpr ⟨plain_text _ rfl,digits (n + 1)⟩

theorem reads_enumMember (counter : Int) (member : Text) : Reads (enumMember counter member).2 (memberParts member) := by
  have mark := reads_nothing [':',' '] (plain_text _ rfl)
  unfold enumMember memberParts
  cases splitOnce '=' member with
  | none =>
    have parts := reads_both _ _ _ _ (reads_both _ _ _ _ (reads_self member) mark)
      (reads_nothing _ (plain_number counter))
    simpa using parts
  | some both =>
    have parts := reads_both _ _ _ _ (reads_both _ _ _ _ (reads_self (trim both.1)) mark) (reads_self (trim both.2))
    simpa using parts

/-- Texts with plain characters between them. -/
theorem reads_intercalate (mark : Text) (plain : ∀ c ∈ mark, isPlain c = true) (texts : List Text)
    (parts : List (List Text)) (each : List.Forall₂ Reads texts parts) : Reads (mark.intercalate texts) parts.flatten := by
  induction each with
  | nil => exact reads_nothing [] (List.forall_mem_nil _)
  | @cons text part texts parts here later ih =>
    cases later with
    | nil =>
      rw [List.intercalate_singleton,List.flatten_cons,List.flatten_nil,List.append_nil]
      exact here
    | cons next more =>
      rw [List.intercalate_cons_cons,List.flatten_cons]
      have both := reads_both _ _ _ _ (reads_both _ _ _ _ here (reads_nothing mark plain)) ih
      rwa [List.append_nil] at both

theorem reads_enumMembers (counter : Int) (l : List Text) :
    Reads ([',',' '].intercalate (enumMembers counter l)) (l.map memberParts).flatten := by
  apply reads_intercalate [',',' '] (plain_text _ rfl)
  induction l generalizing counter with
  | nil => exact .nil
  | cons member rest ih => exact .cons (reads_enumMember counter member) (ih _)

theorem intercalate_pieces (body : Text) : [','].intercalate (Pieces.pieces (· == ',') body) = body := by
  induction body with
  | nil => rfl
  | cons c rest ih =>
    have filled := Pieces.pieces_ne_nil (· == ',') rest
    rw [Pieces.pieces]
    generalize Pieces.pieces (· == ',') rest = parts at ih filled ⊢
    obtain ⟨first,more,rfl⟩ := List.exists_cons_of_ne_nil filled
    split_ifs with comma
    · rw [List.intercalate_cons_cons,ih,eq_of_beq comma]
      rfl
    · rw [List.headD_cons,List.tail_cons]
      cases more with
      | nil =>
        rw [List.intercalate_singleton] at ih ⊢
        rw [ih]
      | cons next more =>
        rw [List.intercalate_cons_cons] at ih ⊢
        rw [← ih]
        rfl

theorem reads_body (body : Text) : Reads body (enumParts body) := by
  have pieces : List.Forall₂ Reads (Pieces.pieces (· == ',') body)
      ((Pieces.pieces (· == ',') body).map (fun piece => memberParts (trim piece))) := by
    induction Pieces.pieces (· == ',') body with
    | nil => exact .nil
    | cons piece rest ih =>
      refine .cons (fun s code ends => ?_) ih
      have member := reads_member (trim piece) s code ends
      have trimmed : endInCode s [trim piece] = true := by
        rw [endInCode,endInCode,Bool.and_true,member]
        exact inCode_parts _ s code ends
      exact (reads_trim piece s code trimmed).trans member
  have parts := reads_intercalate [','] (plain_text _ rfl) _ _ pieces
  rw [intercalate_pieces] at parts
  rw [enumParts,List.flatMap_def]
  exact parts

/-- Members of nothing read as nothing. -/
theorem parts_filter (l : List Text) (s : Scanner) (ends : endInCode s (l.flatMap memberParts) = true) :
    endInCode s ((l.filter (fun member => !member.isEmpty)).flatMap memberParts) = true ∧
      ((l.filter (fun member => !member.isEmpty)).flatMap memberParts).foldl Scanner.reads s =
        (l.flatMap memberParts).foldl Scanner.reads s := by
  induction l generalizing s with
  | nil => exact ⟨rfl,rfl⟩
  | cons member rest ih =>
    rw [List.flatMap_cons,endInCode_append] at ends
    obtain ⟨here,later⟩ := Bool.and_eq_true_iff.mp ends
    obtain ⟨stays,same⟩ := ih _ later
    rw [List.flatMap_cons,List.foldl_append]
    cases member with
    | nil => exact ⟨stays,same⟩
    | cons c text =>
      rw [List.filter_cons_of_pos rfl,List.flatMap_cons,endInCode_append,List.foldl_append]
      exact ⟨Bool.and_eq_true_iff.mpr ⟨here,stays⟩,same⟩

theorem reads_members (body : Text) (s : Scanner) (code : s.inCode = true) (ends : endInCode s (enumParts body) = true) :
    s.reads ([',',' '].intercalate (enumMembers 0 (members body))) = s.reads body := by
  have same : enumParts body = ((Pieces.pieces (· == ',') body).map trim).flatMap memberParts := by
    rw [enumParts,List.flatMap_map]
  rw [reads_body body s code ends]
  rw [same] at ends ⊢
  obtain ⟨stays,filtered⟩ := parts_filter _ s ends
  rw [← filtered]
  have converted := reads_enumMembers 0 (members body) s code
  rw [← List.flatMap_def] at converted
  exact converted stays

theorem constObject_eq (enumName body : Text) :
    constObject enumName body = ("const ".toList ++ enumName ++ [' ','=',' ']) ++ '\x7b' ::
      ([' '] ++ ([',',' '].intercalate (enumMembers 0 (members body)) ++ ([' '] ++ '\x7d' :: [';']))) := by
  have opens : " = \x7b ".toList = [' ','=',' '] ++ '\x7b' :: [' '] := by decide
  have closes : " \x7d;".toList = [' '] ++ '\x7d' :: [';'] := by decide
  unfold constObject
  rw [opens,closes]
  generalize [',',' '].intercalate (enumMembers 0 (members body)) = inner
  simp only [List.append_assoc,List.cons_append,List.nil_append]

theorem respects_enums (isWord : Char → Bool) (words : ∀ c, isWord c = true → isPlain c = true) :
    Respects Scanner.read (convertEnums isWord) cutInCode := by
  rintro found _ ⟨first,last,bare,way,takes,rfl⟩ s meets
  obtain ⟨blank,enumName,gap,body,whole,white,white',named,one,two⟩ := enum_found isWord first last bare found way takes
  obtain ⟨both,ends⟩ := Bool.and_eq_true_iff.mp meets
  obtain ⟨code,parts⟩ := Bool.and_eq_true_iff.mp both
  have name : ∀ c ∈ enumName, isPlain c = true := fun c inside => words c (named c inside)
  have head : ∀ c ∈ "enum".toList ++ (blank ++ (enumName ++ gap)), isPlain c = true := by
    simp only [List.forall_mem_append]
    exact ⟨plain_text _ rfl,fun c inside => plain_blank c (white c inside),name,fun c inside => plain_blank c (white' c inside)⟩
  have split : found = ("enum".toList ++ (blank ++ (enumName ++ gap))) ++ '\x7b' :: (body ++ ['\x7d']) := by
    rw [whole]
    simp only [List.append_assoc,List.cons_append,List.nil_append]
  have inner : enumBody found = body := by
    have apart : ∀ c ∈ "enum".toList ++ (blank ++ (enumName ++ gap)), (c != '\x7b') = true := by
      intro c inside
      refine bne_iff_ne.mpr (fun same => ?_)
      exact Bool.false_ne_true ((by decide : false = isPlain '\x7b').trans (same ▸ head c inside))
    rw [enumBody,split,List.dropWhile_append_of_pos apart,List.dropWhile_cons_of_neg (by decide),List.drop_one,
      List.tail_cons,List.dropLast_concat]
  rw [inner] at parts
  have opened := inCode_opening s code
  have read : s.reads found = ((s.read '\x7b').reads body).read '\x7d' := by
    rw [split,reads_append,reads_plain s code _ head,reads_cons,reads_append]
    rfl
  rw [read] at ends
  have after : ((s.read '\x7b').reads body).inCode = true := by
    rw [reads_body body _ opened parts]
    exact inCode_parts _ _ opened parts
  change s.reads (constObject (groups last 1) (groups last 2)) = s.reads found
  have front : ∀ c ∈ "const ".toList ++ enumName ++ [' ','=',' '], isPlain c = true := by
    simp only [List.forall_mem_append]
    exact ⟨⟨plain_text _ rfl,name⟩,plain_text _ rfl⟩
  have object := constObject_eq enumName body
  rw [one,two,read,object,reads_append,reads_plain s code _ front,reads_cons,reads_append,
    reads_plain _ opened [' '] (plain_text _ rfl),reads_append,reads_members body _ opened parts,reads_append,
    reads_plain _ after [' '] (plain_text _ rfl),reads_cons,reads_plain _ ends [';'] (plain_text _ rfl)]

end Cuts

section Alone
variable (isWord : Char → Bool)

/-- The steps, each with where its matches may stand. -/
def rules : List (Stage × (Scanner → Text → Bool)) :=
  [(typeImports,stays),(interfaces isWord,stays),(typeAliases isWord,stays),(genericParams,begins),(removeParamTypes,begins),
    (returnTypes,begins),(asAssertions,begins),(angleAssertions,begins),(modifier "readonly ",begins),
    (modifier "public ",begins),(modifier "private ",begins),(modifier "protected ",begins),(modifier "declare ",begins),
    (modifier "abstract ",begins),(convertEnums isWord,cutInCode)]

theorem rules_stages : (rules isWord).map Prod.fst = stages isWord := rfl

theorem rules_respect (words : ∀ c, isWord c = true → isPlain c = true) :
    ∀ rule ∈ rules isWord, Respects Scanner.read rule.1 rule.2 := by
  intro rule member
  simp only [rules,List.mem_cons,List.not_mem_nil,or_false] at member
  rcases member with rfl | rfl | rfl | rfl | rfl | rfl | rfl | rfl | rfl | rfl | rfl | rfl | rfl | rfl | rfl
  · exact respects_removed _
  · exact respects_removed _
  · exact respects_removed _
  · exact respects_generics
  · exact respects_params
  · exact respects_returns
  · exact respects_assertions
  · exact respects_angles
  · exact respects_modifier _ (by decide)
  · exact respects_modifier _ (by decide)
  · exact respects_modifier _ (by decide)
  · exact respects_modifier _ (by decide)
  · exact respects_modifier _ (by decide)
  · exact respects_modifier _ (by decide)
  · exact respects_enums isWord words

end Alone

/-- `\w` among the characters of ASCII. -/
def asciiWord (c : Char) : Bool := c.isAlphanum || c = '_'

def colours : Text := "enum A\x7bB='x' /* 1 */, C\x7d // end".toList

end ClawKernel.Script.Transpiled
