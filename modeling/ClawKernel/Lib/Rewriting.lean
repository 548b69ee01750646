import ClawKernel.Lib.Regex
import Mathlib.Data.List.Flatten

/-! Texts that are rewritten step by step, each step with a regular expression whose matches are
replaced one after another. What a match consists of, how a step changes the number of some
characters, and when a text reads as before.
-/
namespace ClawKernel.Lib.Rewriting
open Regex

def plus (regex : Regex) : Regex := .seq regex (.star regex)

def optional (regex : Regex) : Regex := .alt regex .empty

def word (text : String) : Regex := concat (text.toList.map literal)

/-! What a match takes. -/

section Matches

/-- The characters from one place to another. -/
def Takes (first last : Place) (taken : List Char) : Prop :=
  first.rest = taken ++ last.rest ∧ last.past = taken.reverse ++ first.past

theorem takes_refl (place : Place) : Takes place place [] := ⟨rfl,rfl⟩

theorem takes_trans (first middle last : Place) (one other : List Char) (here : Takes first middle one)
    (there : Takes middle last other) : Takes first last (one ++ other) := by
  refine ⟨?_,?_⟩
  · rw [here.1,there.1,List.append_assoc]
  · rw [there.2,here.2,List.reverse_append,List.append_assoc]

theorem takes_unique (first last : Place) (one other : List Char) (here : Takes first last one)
    (there : Takes first last other) : one = other :=
  List.append_cancel_right (here.1.symm.trans there.1)

theorem takes_between (first last : Place) (taken : List Char) (takes : Takes first last taken) :
    first.between last = taken := by
  rw [Place.between,takes.2,List.length_append,Nat.add_sub_cancel,List.take_left,List.reverse_reverse]

/-- Every character of a match is allowed. -/
def Only (allowed : Char → Prop) : Regex → Prop
  | .one set => ∀ c, set c = true → allowed c
  | .seq first second => Only allowed first ∧ Only allowed second
  | .alt first second => Only allowed first ∧ Only allowed second
  | .star body => Only allowed body
  | .group _ body => Only allowed body
  | _ => True

/-- Every match has a character that is wanted. -/
def Needs (wanted : Char → Prop) : Regex → Prop
  | .one set => ∀ c, set c = true → wanted c
  | .seq first second => Needs wanted first ∨ Needs wanted second
  | .alt first second => Needs wanted first ∧ Needs wanted second
  | .group _ body => Needs wanted body
  | _ => False

/-- Without groups. -/
def groupless : Regex → Bool
  | .seq first second => groupless first && groupless second
  | .alt first second => groupless first && groupless second
  | .star body => groupless body
  | .group _ _ => false
  | _ => true

/-- What holds of no turn, and of one turn and then more, holds of a repetition. -/
theorem repeated_closed (ways : Place → List Place) (R : Place → Place → Prop) (none : ∀ place, R place place)
    (turn : ∀ first next last, next ∈ ways first → R next last → R first last) (fuel : Nat) (first last : Place)
    (way : last ∈ repeated ways fuel first) : R first last := by
  induction fuel generalizing first with
  | zero =>
    rw [repeated,List.mem_singleton] at way
    exact way ▸ none first
  | succ fuel ih =>
    rw [repeated,List.mem_append,List.mem_singleton,List.mem_flatMap] at way
    rcases way with ⟨next,chosen,later⟩ | rfl
    · exact turn first next last (List.mem_filter.mp chosen).1 (ih next later)
    · exact none last

theorem takes_only (allowed : Char → Prop) (regex : Regex) (only : Only allowed regex) (first last : Place)
    (way : last ∈ regex.ways first) : ∃ taken, Takes first last taken ∧ ∀ c ∈ taken, allowed c := by
  induction regex generalizing first last with
  | empty =>
    rw [Regex.ways,List.mem_singleton] at way
    exact ⟨[],way ▸ takes_refl first,by simp⟩
  | one set =>
    obtain ⟨c,accepted,left,before,-⟩ := (mem_step set first last).mp way
    exact ⟨[c],⟨left,before⟩,by simpa using only c accepted⟩
  | start =>
    rw [Regex.ways] at way
    split at way
    · rw [List.mem_singleton] at way
      exact ⟨[],way ▸ takes_refl first,by simp⟩
    · cases way
  | finish =>
    rw [((mem_finish first last).mp way).2]
    exact ⟨[],takes_refl first,by simp⟩
  | seq one other ih ih' =>
    obtain ⟨middle,here,there⟩ := (mem_seq one other first last).mp way
    obtain ⟨taken,takes,all⟩ := ih only.1 first middle here
    obtain ⟨taken',takes',all'⟩ := ih' only.2 middle last there
    exact ⟨taken ++ taken',takes_trans _ _ _ _ _ takes takes',List.forall_mem_append.mpr ⟨all,all'⟩⟩
  | alt one other ih ih' =>
    rw [Regex.ways,List.mem_append] at way
    cases way with
    | inl here => exact ih only.1 first last here
    | inr there => exact ih' only.2 first last there
  | star body ih =>
    refine repeated_closed body.ways (fun first last => ∃ taken, Takes first last taken ∧ ∀ c ∈ taken, allowed c)
      (fun place => ⟨[],takes_refl place,by simp⟩) ?_ _ first last way
    rintro first next last here ⟨taken',takes',all'⟩
    obtain ⟨taken,takes,all⟩ := ih only first next here
    exact ⟨taken ++ taken',takes_trans _ _ _ _ _ takes takes',List.forall_mem_append.mpr ⟨all,all'⟩⟩
  | group index body ih =>
    rw [Regex.ways,List.mem_map] at way
    obtain ⟨reached,here,rfl⟩ := way
    exact ih only first reached here

theorem only_any (regex : Regex) : Only (fun _ => True) regex := by
  induction regex with
  | seq one other ih ih' => exact ⟨ih,ih'⟩
  | alt one other ih ih' => exact ⟨ih,ih'⟩
  | star body ih => exact ih
  | group index body ih => exact ih
  | one set => exact fun _ _ => trivial
  | _ => trivial

theorem takes_of_way (regex : Regex) (first last : Place) (way : last ∈ regex.ways first) :
    ∃ taken, Takes first last taken := by
  obtain ⟨taken,takes,-⟩ := takes_only (fun _ => True) regex (only_any regex) first last way
  exact ⟨taken,takes⟩

theorem takes_needs (wanted : Char → Prop) (regex : Regex) (needs : Needs wanted regex) (first last : Place)
    (way : last ∈ regex.ways first) (taken : List Char) (takes : Takes first last taken) : ∃ c ∈ taken, wanted c := by
  induction regex generalizing first last taken with
  | one set =>
    obtain ⟨c,accepted,left,before,-⟩ := (mem_step set first last).mp way
    rw [takes_unique first last taken [c] takes ⟨left,before⟩]
    exact ⟨c,List.mem_singleton.mpr rfl,needs c accepted⟩
  | seq one other ih ih' =>
    obtain ⟨middle,here,there⟩ := (mem_seq one other first last).mp way
    obtain ⟨before,takes₁⟩ := takes_of_way one first middle here
    obtain ⟨after,takes₂⟩ := takes_of_way other middle last there
    rw [takes_unique first last taken _ takes (takes_trans _ _ _ _ _ takes₁ takes₂)]
    cases needs with
    | inl needs =>
      obtain ⟨c,inside,wants⟩ := ih needs first middle here before takes₁
      exact ⟨c,List.mem_append_left after inside,wants⟩
    | inr needs =>
      obtain ⟨c,inside,wants⟩ := ih' needs middle last there after takes₂
      exact ⟨c,List.mem_append_right before inside,wants⟩
  | alt one other ih ih' =>
    rw [Regex.ways,List.mem_append] at way
    cases way with
    | inl here => exact ih needs.1 first last here taken takes
    | inr there => exact ih' needs.2 first last there taken takes
  | group index body ih =>
    rw [Regex.ways,List.mem_map] at way
    obtain ⟨reached,here,rfl⟩ := way
    exact ih needs first reached here taken takes
  | empty => exact needs.elim
  | start => exact needs.elim
  | finish => exact needs.elim
  | star body => exact needs.elim

theorem captures_of_way (regex : Regex) (plain : groupless regex = true) (first last : Place)
    (way : last ∈ regex.ways first) : last.captures = first.captures := by
  induction regex generalizing first last with
  | empty =>
    rw [Regex.ways,List.mem_singleton] at way
    rw [way]
  | one set =>
    obtain ⟨_,_,_,_,captured⟩ := (mem_step set first last).mp way
    exact captured
  | start =>
    rw [Regex.ways] at way
    split at way
    · rw [List.mem_singleton.mp way]
    · cases way
  | finish => rw [((mem_finish first last).mp way).2]
  | seq one other ih ih' =>
    obtain ⟨here',there'⟩ := Bool.and_eq_true_iff.mp plain
    obtain ⟨middle,here,there⟩ := (mem_seq one other first last).mp way
    exact (ih' there' middle last there).trans (ih here' first middle here)
  | alt one other ih ih' =>
    obtain ⟨here',there'⟩ := Bool.and_eq_true_iff.mp plain
    rw [Regex.ways,List.mem_append] at way
    cases way with
    | inl here => exact ih here' first last here
    | inr there => exact ih' there' first last there
  | star body ih =>
    exact repeated_closed body.ways (fun first last => last.captures = first.captures) (fun _ => rfl)
      (fun first next last here later => later.trans (ih plain first next here)) _ first last way
  | group index body => cases plain

/-- A group without groups in it captures what it takes. -/
theorem captures_of_group (index : Nat) (body : Regex) (plain : groupless body = true) (first last : Place)
    (way : last ∈ (Regex.group index body).ways first) :
    ∃ taken, Takes first last taken ∧ last.captures = (index,taken) :: first.captures := by
  rw [Regex.ways,List.mem_map] at way
  obtain ⟨reached,here,rfl⟩ := way
  obtain ⟨taken,takes⟩ := takes_of_way body first reached here
  refine ⟨taken,takes,?_⟩
  rw [Place.capture,takes_between first reached taken takes,captures_of_way body plain first reached here]

/-- What a match captures is of its own characters. -/
theorem captures_only (allowed : Char → Prop) (regex : Regex) (only : Only allowed regex) (first last : Place)
    (way : last ∈ regex.ways first) (before : ∀ e ∈ first.captures, ∀ c ∈ e.2, allowed c) :
    ∀ e ∈ last.captures, ∀ c ∈ e.2, allowed c := by
  induction regex generalizing first last with
  | empty =>
    rw [Regex.ways,List.mem_singleton] at way
    exact way ▸ before
  | one set =>
    obtain ⟨_,_,_,_,captured⟩ := (mem_step set first last).mp way
    exact captured ▸ before
  | start =>
    rw [Regex.ways] at way
    split at way
    · exact List.mem_singleton.mp way ▸ before
    · cases way
  | finish => exact ((mem_finish first last).mp way).2 ▸ before
  | seq one other ih ih' =>
    obtain ⟨middle,here,there⟩ := (mem_seq one other first last).mp way
    exact ih' only.2 middle last there (ih only.1 first middle here before)
  | alt one other ih ih' =>
    rw [Regex.ways,List.mem_append] at way
    cases way with
    | inl here => exact ih only.1 first last here before
    | inr there => exact ih' only.2 first last there before
  | star body ih =>
    exact repeated_closed body.ways (fun first last => (∀ e ∈ first.captures, ∀ c ∈ e.2, allowed c) →
      ∀ e ∈ last.captures, ∀ c ∈ e.2, allowed c) (fun _ => id)
      (fun first next last here later before => later (ih only first next here before)) _ first last way before
  | group index body ih =>
    rw [Regex.ways,List.mem_map] at way
    obtain ⟨reached,here,rfl⟩ := way
    obtain ⟨taken,takes,all⟩ := takes_only allowed body only first reached here
    rw [Place.capture,takes_between first reached taken takes]
    exact List.forall_mem_cons.mpr ⟨all,ih only first reached here before⟩

theorem mem_concat_cons (item : Regex) (items : List Regex) (first last : Place) :
    last ∈ (concat (item :: items)).ways first ↔ ∃ middle ∈ item.ways first, last ∈ (concat items).ways middle :=
  mem_seq item (concat items) first last

theorem takes_literal (c : Char) (first last : Place) (way : last ∈ (literal c).ways first) : Takes first last [c] := by
  obtain ⟨d,same,left,before,-⟩ := (mem_step _ first last).mp way
  rw [eq_of_beq same] at left before
  exact ⟨left,before⟩

theorem takes_concat_literal (text : List Char) (first last : Place) (way : last ∈ (concat (text.map literal)).ways first) :
    Takes first last text := by
  induction text generalizing first with
  | nil =>
    rw [List.map_nil,concat,Regex.ways,List.mem_singleton] at way
    exact way ▸ takes_refl first
  | cons c text ih =>
    rw [List.map_cons] at way
    obtain ⟨middle,here,there⟩ := (mem_concat_cons _ _ first last).mp way
    exact takes_trans _ _ _ _ _ (takes_literal c first middle here) (ih middle there)

theorem takes_word (text : String) (first last : Place) (way : last ∈ (word text).ways first) :
    Takes first last text.toList :=
  takes_concat_literal text.toList first last way

theorem needs_concat (wanted : Char → Prop) (items : List Regex) (item : Regex) (member : item ∈ items)
    (needs : Needs wanted item) : Needs wanted (concat items) := by
  induction items with
  | nil => cases member
  | cons head rest ih =>
    cases List.mem_cons.mp member with
    | inl first => exact .inl (first ▸ needs)
    | inr later => exact .inr (ih later)

theorem needs_literal (wanted : Char → Prop) (c : Char) (wants : wanted c) : Needs wanted (literal c) :=
  fun _ same => eq_of_beq same ▸ wants

theorem needs_word (wanted : Char → Prop) (text : String) (c : Char) (member : c ∈ text.toList) (wants : wanted c) :
    Needs wanted (word text) :=
  needs_concat wanted _ (literal c) (List.mem_map_of_mem member) (needs_literal wanted c wants)

/-- The group at the end of an expression has captured the end of the match. -/
theorem takes_last_group (items : List Regex) (index : Nat) (body : Regex) (plain : groupless body = true)
    (first last : Place) (way : last ∈ (concat (items ++ [.group index body])).ways first) :
    ∃ front taken earlier, Takes first last (front ++ taken) ∧ last.captures = (index,taken) :: earlier ∧
      (groupless (concat items) = true → earlier = first.captures) ∧
      ∀ wanted, Needs wanted (concat items) → ∃ c ∈ front, wanted c := by
  obtain ⟨middle,here,there⟩ := (mem_concat_append items [.group index body] first last).mp way
  obtain ⟨reached,there,done⟩ := (mem_concat_cons _ _ middle last).mp there
  rw [concat,Regex.ways,List.mem_singleton] at done
  subst done
  obtain ⟨front,before⟩ := takes_of_way (concat items) first middle here
  obtain ⟨taken,after,captured⟩ := captures_of_group index body plain middle last there
  refine ⟨front,taken,middle.captures,takes_trans _ _ _ _ _ before after,captured,?_,?_⟩
  · exact fun none => captures_of_way (concat items) none first middle here
  · exact fun wanted needs => takes_needs wanted (concat items) needs first middle here front before

end Matches

/-! Steps. -/

section Steps

inductive Segment where
  | kept (c : Char)
  | replaced (found fresh : List Char)
  deriving DecidableEq

def Segment.before : Segment → List Char
  | .kept c => [c]
  | .replaced found _ => found

def Segment.after : Segment → List Char
  | .kept c => [c]
  | .replaced _ fresh => fresh

def Segment.isReplaced : Segment → Bool
  | .kept _ => false
  | .replaced _ _ => true

/-- What stands in the place of a match, for the match and its groups. The expression is one that takes at least
one character. -/
structure Stage where
  regex : Regex
  fresh : List Char → (Nat → List Char) → List Char

/-- A group that has captured nothing is empty. -/
def groups (last : Place) (index : Nat) : List Char := (last.captures.lookup index).getD []

/-- A match that is replaced by itself is kept. -/
def piece (found fresh : List Char) : List Segment :=
  if fresh = found then found.map .kept else [.replaced found fresh]

/-- `replace_all`: the leftmost match, and after its end the next one. -/
def Stage.segmentsFrom (stage : Stage) : Nat → List Char → List Char → List Segment
  | fuel + 1, past, c :: rest =>
    match (stage.regex.ways ⟨past,c :: rest,[]⟩).head? with
    | some last =>
      if last.rest.length < rest.length + 1 then
        piece (Place.between ⟨past,c :: rest,[]⟩ last)
            (stage.fresh (Place.between ⟨past,c :: rest,[]⟩ last) (groups last)) ++
          stage.segmentsFrom fuel last.past last.rest
      else .kept c :: stage.segmentsFrom fuel (c :: past) rest
    | none => .kept c :: stage.segmentsFrom fuel (c :: past) rest
  | _, _, rest => rest.map .kept

def Stage.segments (stage : Stage) (text : List Char) : List Segment := stage.segmentsFrom text.length [] text

def Stage.apply (stage : Stage) (text : List Char) : List Char := (stage.segments text).flatMap Segment.after

/-- A match of the text is replaced by something else. -/
def Stage.rewrites (stage : Stage) (text : List Char) : Bool := (stage.segments text).any Segment.isReplaced

/-- A match and what it is replaced by. -/
def Stage.Matches (stage : Stage) (found fresh : List Char) : Prop :=
  ∃ first last : Place, first.captures = [] ∧ last ∈ stage.regex.ways first ∧ Takes first last found ∧
    fresh = stage.fresh found (groups last)

variable (stage : Stage)

theorem flatMap_kept_before (text : List Char) : (text.map Segment.kept).flatMap Segment.before = text := by
  rw [List.flatMap_map]
  exact List.flatMap_singleton' text

theorem flatMap_kept_after (text : List Char) : (text.map Segment.kept).flatMap Segment.after = text := by
  rw [List.flatMap_map]
  exact List.flatMap_singleton' text

theorem piece_before (found fresh : List Char) : (piece found fresh).flatMap Segment.before = found := by
  unfold piece
  split
  · exact flatMap_kept_before found
  · exact List.append_nil found

/-- The segments are those of the text, and what is replaced is a match. -/
theorem segmentsFrom_spec (fuel : Nat) (past rest : List Char) :
    (stage.segmentsFrom fuel past rest).flatMap Segment.before = rest ∧
      ∀ found fresh, .replaced found fresh ∈ stage.segmentsFrom fuel past rest →
        stage.Matches found fresh ∧ fresh ≠ found := by
  have plain (text : List Char) (found fresh : List Char) : Segment.replaced found fresh ∉ text.map Segment.kept := by
    simp
  induction fuel generalizing past rest with
  | zero => exact ⟨flatMap_kept_before rest,fun found fresh inside => absurd inside (plain rest found fresh)⟩
  | succ fuel ih =>
    cases rest with
    | nil => exact ⟨rfl,fun found fresh inside => absurd inside (plain [] found fresh)⟩
    | cons c rest =>
      -- A character is kept where nothing matches, and where a match is empty.
      have kept : (Segment.kept c :: stage.segmentsFrom fuel (c :: past) rest).flatMap Segment.before = c :: rest ∧
          ∀ found fresh, .replaced found fresh ∈ Segment.kept c :: stage.segmentsFrom fuel (c :: past) rest →
            stage.Matches found fresh ∧ fresh ≠ found := by
        refine ⟨congrArg (c :: ·) (ih (c :: past) rest).1,fun found fresh inside => ?_⟩
        cases List.mem_cons.mp inside with
        | inl same => cases same
        | inr later => exact (ih (c :: past) rest).2 found fresh later
      rw [Stage.segmentsFrom]
      cases here : (stage.regex.ways ⟨past,c :: rest,[]⟩).head? with
      | none => exact kept
      | some last =>
        simp only
        split
        · have way := List.mem_of_mem_head? here
          obtain ⟨taken,takes⟩ := takes_of_way stage.regex _ last way
          rw [takes_between _ last taken takes]
          refine ⟨?_,fun found fresh inside => ?_⟩
          · rw [List.flatMap_append,piece_before,(ih last.past last.rest).1]
            exact takes.1.symm
          · cases List.mem_append.mp inside with
            | inl now =>
              unfold piece at now
              split at now
              · exact absurd now (plain _ found fresh)
              · rename_i differs
                obtain ⟨rfl,rfl⟩ := Segment.replaced.inj (List.mem_singleton.mp now)
                exact ⟨⟨_,last,rfl,way,takes,rfl⟩,differs⟩
            | inr later => exact (ih last.past last.rest).2 found fresh later
        · exact kept

theorem segments_before (text : List Char) : (stage.segments text).flatMap Segment.before = text :=
  (segmentsFrom_spec stage text.length [] text).1

theorem segments_match (text found fresh : List Char) (inside : .replaced found fresh ∈ stage.segments text) :
    stage.Matches found fresh ∧ fresh ≠ found :=
  (segmentsFrom_spec stage text.length [] text).2 found fresh inside

theorem segments_of_calm (text : List Char) (calm : stage.rewrites text = false) :
    stage.segments text = text.map Segment.kept := by
  have kept (segments : List Segment) (none : segments.any Segment.isReplaced = false) :
      segments = (segments.flatMap Segment.before).map Segment.kept := by
    induction segments with
    | nil => rfl
    | cons segment rest ih =>
      obtain ⟨here,later⟩ := Bool.or_eq_false_iff.mp none
      cases segment with
      | kept c => exact congrArg (Segment.kept c :: ·) (ih later)
      | replaced found fresh => cases here
  exact (kept _ calm).trans (congrArg (List.map Segment.kept) (segments_before stage text))

theorem apply_of_calm (text : List Char) (calm : stage.rewrites text = false) : stage.apply text = text := by
  rw [Stage.apply,segments_of_calm stage text calm,flatMap_kept_after]

end Steps

/-! How many characters of a kind there are. -/

section Counts
variable (stage : Stage) (kind : Char → Bool)

theorem countP_flatMap_le {α : Type*} (f g : α → List Char) (l : List α)
    (each : ∀ a ∈ l, (f a).countP kind ≤ (g a).countP kind) : (l.flatMap f).countP kind ≤ (l.flatMap g).countP kind := by
  induction l with
  | nil => exact Nat.le_refl _
  | cons a l ih =>
    obtain ⟨here,later⟩ := List.forall_mem_cons.mp each
    rw [List.flatMap_cons,List.flatMap_cons,List.countP_append,List.countP_append]
    exact Nat.add_le_add here (ih later)

theorem countP_flatMap_lt {α : Type*} (f g : α → List Char) (l : List α)
    (each : ∀ a ∈ l, (f a).countP kind ≤ (g a).countP kind) (a : α) (inside : a ∈ l)
    (less : (f a).countP kind < (g a).countP kind) : (l.flatMap f).countP kind < (l.flatMap g).countP kind := by
  obtain ⟨before,after,rfl⟩ := List.append_of_mem inside
  obtain ⟨front,back⟩ := List.forall_mem_append.mp each
  have first := countP_flatMap_le kind f g before front
  have last := countP_flatMap_le kind f g after (List.forall_mem_cons.mp back).2
  simp only [List.flatMap_append,List.flatMap_cons,List.countP_append]
  omega

/-- A rewritten match has fewer characters of the kind than before. -/
def Stage.Loses : Prop := ∀ found fresh, stage.Matches found fresh → fresh ≠ found → fresh.countP kind < found.countP kind

def Stage.AtMost : Prop := ∀ found fresh, stage.Matches found fresh → fresh.countP kind ≤ found.countP kind

def Stage.Gains : Prop := ∀ found fresh, stage.Matches found fresh → fresh ≠ found → found.countP kind < fresh.countP kind

/-- A rewritten match has as many. -/
def Stage.Holds : Prop := ∀ found fresh, stage.Matches found fresh → fresh.countP kind = found.countP kind

theorem atMost_of_loses (loses : stage.Loses kind) : stage.AtMost kind := by
  intro found fresh found'
  by_cases same : fresh = found
  · exact Nat.le_of_eq (congrArg (List.countP kind) same)
  · exact Nat.le_of_lt (loses found fresh found' same)

theorem rewrites_iff (text : List Char) :
    stage.rewrites text = true ↔ ∃ found fresh, .replaced found fresh ∈ stage.segments text := by
  rw [Stage.rewrites,List.any_eq_true]
  constructor
  · rintro ⟨segment,inside,replaced⟩
    cases segment with
    | kept c => cases replaced
    | replaced found fresh => exact ⟨found,fresh,inside⟩
  · rintro ⟨found,fresh,inside⟩
    exact ⟨_,inside,rfl⟩

theorem each_le (most : stage.AtMost kind) (text : List Char) :
    ∀ segment ∈ stage.segments text, segment.after.countP kind ≤ segment.before.countP kind := by
  intro segment inside
  cases segment with
  | kept c => exact Nat.le_refl _
  | replaced found fresh => exact most found fresh (segments_match stage text found fresh inside).1

theorem countP_atMost (most : stage.AtMost kind) (text : List Char) :
    (stage.apply text).countP kind ≤ text.countP kind := by
  have whole := congrArg (List.countP kind) (segments_before stage text)
  rw [← whole]
  exact countP_flatMap_le kind _ _ _ (each_le stage kind most text)

theorem countP_loses (loses : stage.Loses kind) (text : List Char) (rewritten : stage.rewrites text = true) :
    (stage.apply text).countP kind < text.countP kind := by
  have whole := congrArg (List.countP kind) (segments_before stage text)
  obtain ⟨found,fresh,inside⟩ := (rewrites_iff stage text).mp rewritten
  obtain ⟨found',differs⟩ := segments_match stage text found fresh inside
  rw [← whole]
  exact countP_flatMap_lt kind _ _ _ (each_le stage kind (atMost_of_loses stage kind loses) text) _ inside
    (loses found fresh found' differs)

theorem countP_gains (gains : stage.Gains kind) (text : List Char) (rewritten : stage.rewrites text = true) :
    text.countP kind < (stage.apply text).countP kind := by
  have each : ∀ segment ∈ stage.segments text, segment.before.countP kind ≤ segment.after.countP kind := by
    intro segment inside
    cases segment with
    | kept c => exact Nat.le_refl _
    | replaced found fresh =>
      obtain ⟨found',differs⟩ := segments_match stage text found fresh inside
      exact Nat.le_of_lt (gains found fresh found' differs)
  have whole := congrArg (List.countP kind) (segments_before stage text)
  obtain ⟨found,fresh,inside⟩ := (rewrites_iff stage text).mp rewritten
  obtain ⟨found',differs⟩ := segments_match stage text found fresh inside
  rw [← whole]
  exact countP_flatMap_lt kind _ _ _ each _ inside (gains found fresh found' differs)

theorem countP_holds (holds : stage.Holds kind) (text : List Char) :
    (stage.apply text).countP kind = text.countP kind := by
  have each : ∀ segment ∈ stage.segments text, segment.after.countP kind = segment.before.countP kind := by
    intro segment inside
    cases segment with
    | kept c => rfl
    | replaced found fresh => exact holds found fresh (segments_match stage text found fresh inside).1
  have whole := congrArg (List.countP kind) (segments_before stage text)
  rw [← whole]
  exact Nat.le_antisymm (countP_flatMap_le kind _ _ _ (fun segment inside => Nat.le_of_eq (each segment inside)))
    (countP_flatMap_le kind _ _ _ (fun segment inside => Nat.le_of_eq (each segment inside).symm))

theorem countP_foldl_le (stages : List Stage) (losing : ∀ stage ∈ stages, stage.Loses kind) (text : List Char) :
    (stages.foldl (fun text stage => stage.apply text) text).countP kind ≤ text.countP kind := by
  induction stages generalizing text with
  | nil => exact Nat.le_refl _
  | cons stage rest ih =>
    obtain ⟨here,later⟩ := List.forall_mem_cons.mp losing
    exact Nat.le_trans (ih later _) (countP_atMost stage kind (atMost_of_loses stage kind here) text)

/-- What takes away no characters of the kind has not been rewritten, if every rewriting takes some away. -/
theorem calm_of_level (stages : List Stage) (losing : ∀ stage ∈ stages, stage.Loses kind) (text : List Char)
    (level : text.countP kind ≤ (stages.foldl (fun text stage => stage.apply text) text).countP kind) :
    (∀ stage ∈ stages, stage.rewrites text = false) ∧ stages.foldl (fun text stage => stage.apply text) text = text := by
  induction stages with
  | nil => exact ⟨(fun _ inside => by cases inside),rfl⟩
  | cons stage rest ih =>
    obtain ⟨here,later⟩ := List.forall_mem_cons.mp losing
    rw [List.foldl_cons] at level ⊢
    have calm : stage.rewrites text = false := by
      by_contra rewritten
      have less := countP_loses stage kind here text (Bool.not_eq_false _ ▸ rewritten)
      have most := countP_foldl_le kind rest later (stage.apply text)
      omega
    rw [apply_of_calm stage text calm] at level ⊢
    obtain ⟨all,same⟩ := ih later level
    exact ⟨List.forall_mem_cons.mpr ⟨calm,all⟩,same⟩

end Counts

/-! Readers: a text is read from its start, one character after another. -/

section Readers
variable {σ : Type*} (read : σ → Char → σ)

/-- Each match that is rewritten meets the condition, where what comes before it has been read. -/
def Meets (meets : σ → List Char → Bool) : σ → List Segment → Prop
  | _, [] => True
  | s, .kept c :: rest => Meets meets (read s c) rest
  | s, .replaced found _ :: rest => meets s found = true ∧ Meets meets (found.foldl read s) rest

instance meetsDecidable (meets : σ → List Char → Bool) : ∀ s segments, Decidable (Meets read meets s segments)
  | _, [] => inferInstanceAs (Decidable True)
  | s, .kept c :: rest => meetsDecidable meets (read s c) rest
  | s, .replaced found _ :: rest =>
    have := meetsDecidable meets (found.foldl read s) rest
    inferInstanceAs (Decidable (meets s found = true ∧ Meets read meets (found.foldl read s) rest))

/-- A match that meets the condition reads as what replaces it. -/
def Respects (stage : Stage) (meets : σ → List Char → Bool) : Prop :=
  ∀ found fresh, stage.Matches found fresh → ∀ s, meets s found = true → fresh.foldl read s = found.foldl read s

theorem foldl_of_meets (meets : σ → List Char → Bool) (segments : List Segment)
    (same : ∀ found fresh, .replaced found fresh ∈ segments → ∀ s, meets s found = true →
      fresh.foldl read s = found.foldl read s) (s : σ) (along : Meets read meets s segments) :
    (segments.flatMap Segment.after).foldl read s = (segments.flatMap Segment.before).foldl read s := by
  induction segments generalizing s with
  | nil => rfl
  | cons segment rest ih =>
    have later := ih (fun found fresh inside => same found fresh (List.mem_cons_of_mem segment inside))
    cases segment with
    | kept c => exact later (read s c) along
    | replaced found fresh =>
      obtain ⟨here,others⟩ := along
      rw [List.flatMap_cons,List.flatMap_cons,List.foldl_append,List.foldl_append]
      change (rest.flatMap Segment.after).foldl read (fresh.foldl read s) = _
      rw [same found fresh List.mem_cons_self s here]
      exact later _ others

/-- In every step, of the text that the steps before it have left. -/
def Kept (start : σ) : List (Stage × (σ → List Char → Bool)) → List Char → Prop
  | [], _ => True
  | (stage,meets) :: rest, text => Meets read meets start (stage.segments text) ∧ Kept start rest (stage.apply text)

instance keptDecidable (start : σ) : ∀ rules text, Decidable (Kept read start rules text)
  | [], _ => inferInstanceAs (Decidable True)
  | (stage,meets) :: rest, text =>
    have := keptDecidable start rest (stage.apply text)
    inferInstanceAs (Decidable (Meets read meets start (stage.segments text) ∧ Kept read start rest (stage.apply text)))

/-- By induction on the steps. -/
theorem foldl_of_kept (start : σ) (rules : List (Stage × (σ → List Char → Bool)))
    (respects : ∀ rule ∈ rules, Respects read rule.1 rule.2) (text : List Char) (kept : Kept read start rules text) :
    ((rules.foldl (fun text rule => rule.1.apply text) text)).foldl read start = text.foldl read start := by
  induction rules generalizing text with
  | nil => rfl
  | cons rule rest ih =>
    obtain ⟨first,others⟩ := List.forall_mem_cons.mp respects
    obtain ⟨here,later⟩ := kept
    have step := foldl_of_meets read rule.2 (rule.1.segments text)
      (fun found fresh inside => first found fresh (segments_match rule.1 text found fresh inside).1) start here
    rw [segments_before] at step
    rw [List.foldl_cons,ih others _ later]
    exact step

end Readers

end ClawKernel.Lib.Rewriting
