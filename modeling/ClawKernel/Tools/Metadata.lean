import ClawKernel.Tools.Validation

/-! The metadata of a tool script: the comments that are read for a key, against the forms in
which they are documented.
-/
namespace ClawKernel.Tools.Metadata
open Provider.Sse (trim lines)
open Tools.Validation

/-- What one turn of the loop of `extract_metadata` makes of a line. -/
def readLine (line : Text) : Option (Text × Text) :=
  ((parseLuaComment (trim line)).or (parseJsComment (trim line))).or (parsePythonComment (trim line))

/-- The metadata after some lines. -/
def metadataOf (read : List Text) : List (Text × Text) := (read.filterMap readLine).reverse

/-- The documented forms with a colon. -/
def documentedStarts : List String := ["-- @","--- ","// @","# @"]

def documentedKeyed (line : Text) : Option (Text × Text) :=
  documentedStarts.findSome? (fun start => (afterPrefix start line).bind keyed)

/-- The documented form of a block comment. -/
def documentedBlock (line : Text) : Option (Text × Text) :=
  (afterPrefix "/** @" line).bind (fun rest =>
    if containsText rest " */" then splitOnce ' ' (cutAt " */".toList rest) else none)

def Documented (line key value : Text) : Prop :=
  documentedKeyed (trim line) = some (key,value) ∨ documentedBlock (trim line) = some (key,value)

/-- The key has the value of the last line that is documented for it, and no other line changes its entry. -/
structure ReadsAsDocumented (content key : Text) : Prop where
  last : ∀ before line after value, lines content = before ++ line :: after → Documented line key value →
    (∀ later ∈ after, ∀ other, ¬Documented later key other) → (extractMetadata content).lookup key = some value
  others : ∀ before line after, lines content = before ++ line :: after → (∀ value, ¬Documented line key value) →
    (metadataOf (before ++ [line])).lookup key = (metadataOf before).lookup key

/-- What the code reads last for a key. -/
def lastRead (key : Text) (read : List Text) : Option Text :=
  (read.reverse.filterMap readLine).lookup key

/-- Every line that is read for the key and not documented for it repeats what was read for it last, and so
does a block comment that is the last line documented for it. -/
structure Unmistaken (content key : Text) : Prop where
  repeats : ∀ before line after value, lines content = before ++ line :: after → readLine line = some (key,value) →
    (∀ other, ¬Documented line key other) → lastRead key before = some value
  blocks : ∀ before line after value, lines content = before ++ line :: after →
    documentedBlock (trim line) = some (key,value) → (∀ later ∈ after, ∀ other, ¬Documented later key other) →
    lastRead key before = some value

theorem extractMetadata_eq (content : Text) : extractMetadata content = metadataOf (lines content) := rfl

theorem metadataOf_lookup (key : Text) (read : List Text) : (metadataOf read).lookup key = lastRead key read := by
  rw [metadataOf,lastRead,List.filterMap_reverse]

theorem lastRead_concat (key : Text) (before : List Text) (line : Text) :
    lastRead key (before ++ [line]) =
      ((readLine line).filter (fun entry => key == entry.1)).elim (lastRead key before) (fun entry => some entry.2) := by
  rw [lastRead,List.reverse_append,List.reverse_singleton,List.singleton_append,List.filterMap_cons]
  cases readLine line with
  | none => rfl
  | some entry =>
    obtain ⟨k,value⟩ := entry
    dsimp only
    rw [List.lookup_cons,Option.filter_some]
    cases key == k with
    | true => rfl
    | false => rfl

theorem lastRead_read (key value : Text) (before : List Text) (line : Text) (read : readLine line = some (key,value)) :
    lastRead key (before ++ [line]) = some value := by
  rw [lastRead_concat,read,Option.filter_some,beq_self_eq_true]
  rfl

theorem lastRead_unread (key : Text) (before : List Text) (line : Text)
    (unread : ∀ value, readLine line ≠ some (key,value)) :
    lastRead key (before ++ [line]) = lastRead key before := by
  rw [lastRead_concat]
  cases read : readLine line with
  | none => rfl
  | some entry =>
    obtain ⟨k,value⟩ := entry
    have other : key ≠ k := fun same => unread value (by rw [read,same])
    rw [Option.filter_some,beq_false_of_ne other]
    rfl

theorem afterPrefix_some (start : String) (line rest : Text) (found : afterPrefix start line = some rest) :
    line = start.toList ++ rest := by
  unfold afterPrefix at found
  split at found
  · rename_i starts
    obtain ⟨tail,rfl⟩ := List.isPrefixOf_iff_prefix.mp starts
    rw [← String.length_toList,List.drop_left,Option.some.injEq] at found
    rw [found]
  · cases found

/-- A line that begins otherwise. -/
theorem afterPrefix_none (start : String) (line : Text) (other : ¬start.toList <+: line) : afterPrefix start line = none :=
  if_neg (fun starts => other (List.isPrefixOf_iff_prefix.mp starts))

theorem lua_none (c : Char) (rest : Text) (other : c ≠ '-') : parseLuaComment (c :: rest) = none := by
  have missed (start : String) (begins : start.toList.head? = some '-') : afterPrefix start (c :: rest) = none := by
    refine afterPrefix_none start _ (fun starts => other ?_)
    obtain ⟨tail,same⟩ := starts
    cases first : start.toList with
    | nil =>
      rw [first] at begins
      cases begins
    | cons d more =>
      rw [first,List.head?_cons,Option.some.injEq] at begins
      rw [first,List.cons_append,List.cons.injEq] at same
      rw [← same.1,begins]
  simp only [parseLuaComment,List.findSome?_cons,missed "-- @" rfl,missed "--- " rfl,missed "-- " rfl,Option.bind_none,
    List.findSome?_nil]

theorem js_none (rest : Text) : parseJsComment ('#' :: rest) = none := by
  simp [parseJsComment,afterPrefix]

/-- The forms with a colon are read as they are documented. -/
theorem readLine_keyed (line : Text) (entry : Text × Text) (documented : documentedKeyed (trim line) = some entry) :
    readLine line = some entry := by
  unfold readLine
  generalize trim line = text at documented ⊢
  obtain ⟨start,known,found⟩ := List.exists_of_findSome?_eq_some documented
  obtain ⟨rest,after,read⟩ := Option.bind_eq_some_iff.mp found
  obtain rfl := afterPrefix_some start text rest after
  simp only [documentedStarts,List.mem_cons,List.not_mem_nil,or_false] at known
  rcases known with rfl | rfl | rfl | rfl
  · have lua : parseLuaComment ("-- @".toList ++ rest) = some entry := by
      rw [parseLuaComment,List.findSome?_cons,after,Option.bind_some,read]
    rw [lua]
    rfl
  · have apart : afterPrefix "-- @" ("--- ".toList ++ rest) = none := afterPrefix_none _ _ (by simp)
    have lua : parseLuaComment ("--- ".toList ++ rest) = some entry := by
      rw [parseLuaComment,List.findSome?_cons,apart,Option.bind_none,List.findSome?_cons,after,Option.bind_some,read]
    rw [lua]
    rfl
  · have js : parseJsComment ("// @".toList ++ rest) = some entry := by
      rw [parseJsComment,after,Option.bind_some,read]
      rfl
    have lua : parseLuaComment ("// @".toList ++ rest) = none := lua_none '/' _ (by decide)
    rw [lua,Option.none_or,js]
    rfl
  · have python : parsePythonComment ("# @".toList ++ rest) = some entry := by
      rw [parsePythonComment,List.findSome?_cons,after,Option.bind_some,read]
    have lua : parseLuaComment ("# @".toList ++ rest) = none := lua_none '#' _ (by decide)
    have js : parseJsComment ("# @".toList ++ rest) = none := js_none _
    rw [lua,js,Option.none_or,Option.none_or,python]

theorem containsText_at (rest : Text) : containsText ('@' :: rest) " */" = containsText rest " */" := by
  unfold containsText
  refine decide_eq_decide.mpr ⟨fun inside => ?_,fun inside => inside.trans (List.suffix_cons '@' rest).isInfix⟩
  rcases List.infix_cons_iff.mp inside with starts | later
  · obtain ⟨tail,same⟩ := starts
    cases (List.cons.inj same).1
  · exact later

theorem splitOnce_cons (c d : Char) (text before after : Text) (other : d ≠ c)
    (split : splitOnce c text = some (before,after)) : splitOnce c (d :: text) = some (d :: before,after) := by
  unfold splitOnce at split ⊢
  split at split
  · rename_i inside
    rw [Option.some.injEq,Prod.mk.injEq] at split
    rw [if_pos (List.mem_cons_of_mem d inside),List.takeWhile_cons,List.dropWhile_cons,if_pos (decide_eq_true other),
      if_pos (decide_eq_true other),split.1,split.2]
  · cases split

/-- The block form is read with the `@` in its key. -/
theorem readLine_block (line key value : Text) (documented : documentedBlock (trim line) = some (key,value)) :
    readLine line = some ('@' :: key,value) := by
  unfold readLine
  generalize trim line = text at documented ⊢
  obtain ⟨rest,after,read⟩ := Option.bind_eq_some_iff.mp documented
  obtain rfl := afterPrefix_some _ text rest after
  split at read
  · rename_i inside
    have lua : parseLuaComment ("/** @".toList ++ rest) = none := lua_none '/' _ (by decide)
    have slashes : afterPrefix "// @" ("/** @".toList ++ rest) = none := afterPrefix_none _ _ (by simp)
    have block : "/** @".toList.isPrefixOf ("/** @".toList ++ rest) = true :=
      List.isPrefixOf_iff_prefix.mpr (List.prefix_append _ rest)
    have skipped : ("/** @".toList ++ rest).drop 4 = '@' :: rest := rfl
    have cut : cutAt " */".toList ('@' :: rest) = '@' :: cutAt " */".toList rest := rfl
    have js : parseJsComment ("/** @".toList ++ rest) = some ('@' :: key,value) := by
      rw [parseJsComment,slashes,Option.bind_none,Option.none_or,if_pos block]
      dsimp only
      rw [skipped,containsText_at,if_pos inside,cut]
      exact splitOnce_cons ' ' '@' _ key value (by decide) read
    rw [lua,Option.none_or,js]
    rfl
  · cases read

/-- Lines that change no entry, one after another. -/
theorem lastRead_along (content key : Text) (after first : List Text) (split : lines content = first ++ after)
    (unread : ∀ later ∈ after, ∀ value, ¬Documented later key value)
    (others : ∀ before line after, lines content = before ++ line :: after → (∀ value, ¬Documented line key value) →
      (metadataOf (before ++ [line])).lookup key = (metadataOf before).lookup key) :
    lastRead key (first ++ after) = lastRead key first := by
  induction after generalizing first with
  | nil => rw [List.append_nil]
  | cons line after ih =>
    have along : first ++ line :: after = (first ++ [line]) ++ after := by simp
    have here := others first line after split (unread line List.mem_cons_self)
    rw [metadataOf_lookup,metadataOf_lookup] at here
    rw [along] at split ⊢
    rw [ih (first ++ [line]) split (fun later inside => unread later (List.mem_cons_of_mem line inside)),here]

theorem final_read (content key : Text) (before after : List Text) (line : Text)
    (split : lines content = before ++ line :: after) (unread : ∀ later ∈ after, ∀ value, ¬Documented later key value)
    (others : ∀ before line after, lines content = before ++ line :: after → (∀ value, ¬Documented line key value) →
      (metadataOf (before ++ [line])).lookup key = (metadataOf before).lookup key) :
    (extractMetadata content).lookup key = lastRead key (before ++ [line]) := by
  have along : before ++ line :: after = (before ++ [line]) ++ after := by simp
  rw [extractMetadata_eq,metadataOf_lookup,split,along]
  exact lastRead_along content key after (before ++ [line]) (split.trans along) unread others

theorem block_unread (line key value : Text) (before : List Text) (block : documentedBlock (trim line) = some (key,value)) :
    lastRead key (before ++ [line]) = lastRead key before := by
  refine lastRead_unread key before line (fun other read => ?_)
  rw [readLine_block line key value block,Option.some.injEq,Prod.mk.injEq] at read
  exact List.cons_ne_self '@' key read.1

theorem unmistaken_of_reads (content key : Text) (reads : ReadsAsDocumented content key) : Unmistaken content key where
  repeats before line after value split read undocumented := by
    have same := reads.others before line after split undocumented
    rw [metadataOf_lookup,metadataOf_lookup,lastRead_read key value before line read] at same
    exact same.symm
  blocks before line after value split block unread := by
    have final := reads.last before line after value split (.inr block) unread
    rwa [final_read content key before after line split unread reads.others,
      block_unread line key value before block] at final

theorem reads_of_unmistaken (content key : Text) (unmistaken : Unmistaken content key) : ReadsAsDocumented content key := by
  have others : ∀ before line after, lines content = before ++ line :: after → (∀ value, ¬Documented line key value) →
      (metadataOf (before ++ [line])).lookup key = (metadataOf before).lookup key := by
    intro before line after split undocumented
    rw [metadataOf_lookup,metadataOf_lookup]
    by_cases read : ∃ value, readLine line = some (key,value)
    · obtain ⟨value,read⟩ := read
      rw [lastRead_read key value before line read]
      exact (unmistaken.repeats before line after value split read undocumented).symm
    · exact lastRead_unread key before line (fun value same => read ⟨value,same⟩)
  refine ⟨fun before line after value split documented unread => ?_,others⟩
  rw [final_read content key before after line split unread others]
  rcases documented with keyed | block
  · exact lastRead_read key value before line (readLine_keyed line (key,value) keyed)
  · rw [block_unread line key value before block]
    exact unmistaken.blocks before line after value split block unread

/-- A key's metadata is read as documented exactly if nothing else that is read for it changes its value,
and no block comment has to. -/
theorem readsAsDocumented_iff (content key : Text) : ReadsAsDocumented content key ↔ Unmistaken content key :=
  ⟨unmistaken_of_reads content key,reads_of_unmistaken content key⟩

/-- A block comment is not read for its key, and an ordinary comment is. -/
theorem block_comment_misread :
    ¬ReadsAsDocumented "/** @name web_search */".toList "name".toList ∧
      ¬ReadsAsDocumented "-- @name: web_search\n-- name: the tool".toList "name".toList := by
  constructor
  · intro reads
    have read := reads.last [] "/** @name web_search */".toList [] "web_search".toList rfl (.inr (by decide)) (by simp)
    have missed : (extractMetadata "/** @name web_search */".toList).lookup "name".toList = none := by decide
    rw [missed] at read
    cases read
  · intro reads
    have kept := reads.others ["-- @name: web_search".toList] "-- name: the tool".toList [] (by decide) (fun value => ?_)
    · have changed : (metadataOf (["-- @name: web_search".toList] ++ ["-- name: the tool".toList])).lookup "name".toList ≠
          (metadataOf ["-- @name: web_search".toList]).lookup "name".toList := by
        decide
      exact changed kept
    · have neither : documentedKeyed (trim "-- name: the tool".toList) = none ∧
          documentedBlock (trim "-- name: the tool".toList) = none := by
        decide
      rw [Documented,neither.1,neither.2]
      rintro (same | same) <;> cases same

end ClawKernel.Tools.Metadata
