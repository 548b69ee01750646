import ClawKernel.Lib.Pieces
import ClawKernel.Loop.Assembly
import ClawKernel.Loop.Refinement

/-! The calls that the streaming loop assembles from any fragmentation of a list of calls, and
when they are those calls: what each call's pieces come to by themselves decides.
-/
namespace ClawKernel.Loop.Reassembly
open Lib.Pieces Loop.Assembly Loop.Conversation Loop.Refinement Loop.Run Loop.Streaming
open Provider.Types

/-! Nothing that has been assembled is taken back. -/
section Growing
variable (piece : ToolCall) (assembly : Assembly)

theorem finished_eq : finished assembly = assembly.calls ++
    (assembly.partialId.map (fun id => ⟨id,assembly.partialName.getD "",assembly.partialArgs⟩)).toList := by
  unfold finished flush
  cases assembly.partialId with
  | none => simp
  | some id => rfl

theorem finished_length : (finished assembly).length = assembly.calls.length + assembly.partialId.toList.length := by
  rw [finished_eq]
  cases assembly.partialId with
  | none => simp
  | some id => simp

theorem takeToolCall_calls : assembly.calls <+: (takeToolCall piece assembly).1.calls := by
  obtain ⟨content,calls,usage,finishReason,partialId,partialName,partialArgs⟩ := assembly
  cases partialId with
  | none => by_cases blank : piece.id = "" <;> simp [takeToolCall,flush,blank]
  | some id => by_cases same : piece.id = id <;> by_cases blank : piece.id = "" <;> simp_all [takeToolCall,flush]

theorem takeToolCall_length : (finished assembly).length ≤ (finished (takeToolCall piece assembly).1).length := by
  obtain ⟨content,calls,usage,finishReason,partialId,partialName,partialArgs⟩ := assembly
  rw [finished_length,finished_length]
  cases partialId with
  | none => by_cases blank : piece.id = "" <;> simp [takeToolCall,flush,blank]
  | some id => by_cases same : piece.id = id <;> by_cases blank : piece.id = "" <;> simp_all [takeToolCall,flush]

theorem gather_prefix (pieces : List ToolCall) : assembly.calls <+: finished (gather pieces assembly) := by
  induction pieces generalizing assembly with
  | nil =>
    rw [gather,List.foldl_nil,finished_eq]
    exact List.prefix_append _ _
  | cons piece rest ih => exact (takeToolCall_calls piece assembly).trans (ih (takeToolCall piece assembly).1)

theorem gather_length (pieces : List ToolCall) :
    (finished assembly).length ≤ (finished (gather pieces assembly)).length := by
  induction pieces generalizing assembly with
  | nil => exact Nat.le_refl _
  | cons piece rest ih => exact (takeToolCall_length piece assembly).trans (ih (takeToolCall piece assembly).1)

end Growing

/-! The pieces of one call. -/
section Group
variable (id : String) (named : id ≠ "")
include named

theorem takeToolCall_opened (piece : ToolCall) (assembly : Assembly) (own : piece.id = id ∨ piece.id = "")
    (current : assembly.partialId = some id ∨ assembly.partialId = none) :
    (takeToolCall piece assembly).1.partialId = some id ∨ (takeToolCall piece assembly).1.partialId = none := by
  obtain ⟨content,calls,usage,finishReason,partialId,partialName,partialArgs⟩ := assembly
  have apart : "" ≠ id := named.symm
  rcases current with rfl | rfl
  · rcases own with same | blank
    · simp [takeToolCall,same]
    · simp [takeToolCall,flush,blank,apart]
  · rcases own with same | blank
    · simp [takeToolCall,flush,same,named]
    · simp [takeToolCall,blank]

theorem gather_opened (pieces : List ToolCall) (assembly : Assembly) (own : ∀ piece ∈ pieces, piece.id = id ∨ piece.id = "")
    (current : assembly.partialId = some id ∨ assembly.partialId = none) :
    (gather pieces assembly).partialId = some id ∨ (gather pieces assembly).partialId = none := by
  induction pieces generalizing assembly with
  | nil => exact current
  | cons piece rest ih =>
    exact ih (takeToolCall piece assembly).1 (fun later member => own later (List.mem_cons_of_mem _ member))
      (takeToolCall_opened id named piece assembly (own piece List.mem_cons_self) current)

omit named in
/-- Once the call is closed, a piece with an id opens another one. -/
theorem gather_reopens (pieces : List ToolCall) (assembly : Assembly) (closed : assembly.partialId = none)
    (reopens : ∃ piece ∈ pieces, piece.id ≠ "") :
    assembly.calls.length < (finished (gather pieces assembly)).length := by
  induction pieces generalizing assembly with
  | nil =>
    obtain ⟨_,member,_⟩ := reopens
    cases member
  | cons piece rest ih =>
    by_cases blank : piece.id = ""
    · have same : (takeToolCall piece assembly).1 = {assembly with partialArgs := assembly.partialArgs ++ piece.arguments} := by
        simp [takeToolCall,blank,closed]
      have later : ∃ piece ∈ rest, piece.id ≠ "" := by
        obtain ⟨other,member,opens⟩ := reopens
        exact ⟨other,(List.mem_cons.mp member).resolve_left (fun same => opens (same ▸ blank)),opens⟩
      have longer := ih (takeToolCall piece assembly).1 (by rw [same]; exact closed) later
      have calls : (takeToolCall piece assembly).1.calls = assembly.calls := by rw [same]
      rw [calls] at longer
      exact longer
    · have started := piece_starts piece assembly blank (by rw [closed]; exact fun clash => by cases clash)
      have now : (finished (takeToolCall piece assembly).1).length = assembly.calls.length + 1 := by
        rw [finished_length,started]
        simp [flush,closed]
      have later := gather_length (takeToolCall piece assembly).1 rest
      exact Nat.lt_of_lt_of_le (now ▸ Nat.lt_succ_self _) later

theorem keepsIds_same_blank (same blank : List ToolCall) (own : ∀ piece ∈ same, piece.id = id)
    (empty : ∀ piece ∈ blank, piece.id = "" ∧ piece.arguments = "") : keepsIds (same ++ blank) = true := by
  have blanks : keepsIds blank = true := by
    induction blank with
    | nil => rfl
    | cons piece rest ih =>
      have now := empty piece List.mem_cons_self
      have later := ih (fun other member => empty other (List.mem_cons_of_mem _ member))
      simp [keepsIds,now,later]
  induction same with
  | nil => exact blanks
  | cons piece rest ih =>
    have first := own piece List.mem_cons_self
    have rest_own := fun other member => own other (List.mem_cons_of_mem piece member)
    have left : (rest ++ blank).dropWhile (fun later => later.id ≠ "") = blank := by
      rw [List.dropWhile_append_of_pos]
      · cases blank with
        | nil => rfl
        | cons other _ => simp [(empty other List.mem_cons_self).1]
      · exact fun other member => decide_eq_true (rest_own other member ▸ named)
    have others : ∀ later ∈ blank, later.id ≠ id := fun later member same => named ((empty later member).1.symm.trans same).symm
    rw [List.cons_append,keepsIds,if_neg (first ▸ named),left,ih rest_own,first]
    simpa using others

end Group

theorem join_eq_empty (pieces : List ToolCall) (none : String.join (pieces.map ToolCall.arguments) = "") :
    ∀ piece ∈ pieces, piece.arguments = "" := by
  induction pieces with
  | nil => exact List.forall_mem_nil _
  | cons piece rest ih =>
    rw [List.map_cons,String.join_cons,String.append_eq_empty_iff] at none
    exact List.forall_mem_cons.mpr ⟨none.1,ih none.2⟩

/-- A piece without an id closes the call; if no other is opened, all that follow have no id. -/
theorem gather_closed (id : String) (named : id ≠ "") (first : ToolCall) (rest : List ToolCall) (blank : first.id = "")
    (assembly : Assembly) (current : assembly.partialId = some id) :
    ∃ extra, finished (gather (first :: rest) assembly) = finished assembly ++ extra ∧
      (extra = [] → ∀ piece ∈ rest, piece.id = "") := by
  have closed : (takeToolCall first assembly).1.partialId = none ∧
      (takeToolCall first assembly).1.calls = finished assembly := by
    obtain ⟨content,calls,usage,finishReason,partialId,partialName,partialArgs⟩ := assembly
    obtain rfl : partialId = some id := current
    simp [takeToolCall,finished,flush,blank,named.symm]
  obtain ⟨none,calls⟩ := closed
  obtain ⟨extra,more⟩ := gather_prefix (takeToolCall first assembly).1 rest
  rw [calls] at more
  refine ⟨extra,more.symm,fun nothing => ?_⟩
  by_contra opens
  push Not at opens
  have longer := gather_reopens rest (takeToolCall first assembly).1 none opens
  rw [calls,← more,nothing,List.append_nil] at longer
  exact Nat.lt_irrefl _ longer

/-- The pieces up to the first without an id, and the rest. -/
theorem fragments_cut (id : String) (rest : List ToolCall) (ids : ∀ piece ∈ rest, piece.id = id ∨ piece.id = "") :
    ∃ same left, rest = same ++ left ∧ (∀ piece ∈ same, piece.id = id) ∧ ∀ piece ∈ left.head?, piece.id = "" := by
  refine ⟨rest.takeWhile (fun piece => piece.id ≠ ""),rest.dropWhile (fun piece => piece.id ≠ ""),
    List.takeWhile_append_dropWhile.symm,?_,?_⟩
  · intro piece member
    have named : piece.id ≠ "" := by simpa using List.mem_takeWhile_imp member
    exact (ids piece ((List.takeWhile_sublist _).mem member)).resolve_right named
  · intro piece head
    by_contra named
    have stops := List.head?_dropWhile_not (fun piece : ToolCall => piece.id ≠ "") rest
    rw [Option.mem_def.mp head] at stops
    simp [named] at stops

/-- Whatever the pieces of a call are, they come to one call or more, and to the call itself
exactly if they keep its id. -/
theorem gather_group (call : ToolCall) (pieces : List ToolCall) (assembly : Assembly) (fragments : Fragments call pieces)
    (named : call.id ≠ "") (other : assembly.partialId ≠ some call.id) :
    ((gather pieces assembly).partialId = some call.id ∨ (gather pieces assembly).partialId = none) ∧
      ∃ out, out ≠ [] ∧ finished (gather pieces assembly) = finished assembly ++ out ∧
        (out = [call] ↔ keepsIds pieces = true) := by
  have keeps (kept : keepsIds pieces = true) : finished (gather pieces assembly) = finished assembly ++ [call] :=
    (gather_call call pieces [] assembly fragments named other (by rw [List.append_nil]; exact kept)).1
  obtain ⟨first,rest,rfl,starts,name,ids,joined⟩ := fragments
  have started := piece_starts first assembly (starts ▸ named) (starts ▸ other)
  have opened : (takeToolCall first assembly).1.partialId = some call.id := by rw [started,starts]
  refine ⟨gather_opened call.id named rest (takeToolCall first assembly).1 ids (Or.inl opened),?_⟩
  obtain ⟨same,left,rfl,own,closes⟩ := fragments_cut call.id rest ids
  have ownFirst : ∀ piece ∈ first :: same, piece.id = call.id := List.forall_mem_cons.mpr ⟨starts,own⟩
  cases left with
  | nil =>
    have kept := keepsIds_same_blank call.id named (first :: same) [] ownFirst (List.forall_mem_nil _)
    exact ⟨[call],List.cons_ne_nil _ _,keeps kept,iff_of_true rfl kept⟩
  | cons blank more =>
    have empty : blank.id = "" := closes blank rfl
    have continued := gather_same same call.id own (takeToolCall first assembly).1 opened
    obtain ⟨extra,result,nothing⟩ := gather_closed call.id named blank more empty
      (gather same (takeToolCall first assembly).1) (by rw [continued,opened])
    have parts : gather (first :: (same ++ blank :: more)) assembly =
        gather (blank :: more) (gather same (takeToolCall first assembly).1) := gather_append same (blank :: more) _
    -- the call as far as it was assembled when it was closed
    have cut : finished (gather same (takeToolCall first assembly).1) =
        finished assembly ++ [⟨call.id,call.name,String.join ((first :: same).map ToolCall.arguments)⟩] := by
      rw [continued,started]
      simp [finished,flush,starts,name]
    rw [← parts,cut,List.append_assoc] at result
    refine ⟨_,by simp,result,?_,fun kept => List.append_cancel_left (result.symm.trans (keeps kept))⟩
    intro whole
    obtain ⟨same',none⟩ := List.cons.inj whole
    have lost : String.join ((blank :: more).map ToolCall.arguments) = "" := by
      have arguments := joined.trans (congrArg ToolCall.arguments same').symm
      rw [← List.cons_append,List.map_append,String.join_append] at arguments
      exact String.append_eq_left_iff.mp arguments
    have blanks : ∀ piece ∈ blank :: more, piece.id = "" := List.forall_mem_cons.mpr ⟨empty,nothing none⟩
    exact keepsIds_same_blank call.id named (first :: same) (blank :: more) ownFirst
      (fun piece member => ⟨blanks piece member,join_eq_empty (blank :: more) lost piece member⟩)

theorem gather_groups (calls : List ToolCall) (groups : List (List ToolCall)) (assembly : Assembly)
    (fragments : List.Forall₂ Fragments calls groups) (identified : Identified calls)
    (other : ∀ call ∈ calls, assembly.partialId ≠ some call.id) :
    ∃ outs, outs.length = calls.length ∧ (∀ out ∈ outs, out ≠ []) ∧
      finished (gather groups.flatten assembly) = finished assembly ++ outs.flatten ∧
      (outs = calls.map (fun call => [call]) ↔ ∀ pieces ∈ groups, keepsIds pieces = true) := by
  induction fragments generalizing assembly with
  | nil => exact ⟨[],rfl,List.forall_mem_nil _,(List.append_nil _).symm,iff_of_true rfl (List.forall_mem_nil _)⟩
  | @cons call pieces calls groups now rest ih =>
    obtain ⟨distinct,named⟩ := identified
    rw [List.map_cons,List.nodup_cons] at distinct
    obtain ⟨current,out,filled,result,kept⟩ :=
      gather_group call pieces assembly now (named call List.mem_cons_self) (other call List.mem_cons_self)
    have apart : ∀ later ∈ calls, (gather pieces assembly).partialId ≠ some later.id := by
      intro later member same
      rcases current with pending | closed
      · rw [pending,Option.some.injEq] at same
        exact distinct.1 (same ▸ List.mem_map_of_mem member)
      · rw [closed] at same
        cases same
    obtain ⟨outs,count,nonempty,results,keeps⟩ := ih (gather pieces assembly)
      ⟨distinct.2,fun later member => named later (List.mem_cons_of_mem _ member)⟩ apart
    refine ⟨out :: outs,congrArg (· + 1) count,List.forall_mem_cons.mpr ⟨filled,nonempty⟩,?_,?_⟩
    · rw [List.flatten_cons,gather_append,results,result,List.flatten_cons,List.append_assoc]
    · rw [List.map_cons,List.cons_eq_cons,kept,keeps,List.forall_mem_cons]

/-- A stream that carries the calls in pieces is assembled to exactly these calls if and only if
the pieces of each call keep its id. -/
theorem reassembled_iff (calls : List ToolCall) (groups : List (List ToolCall)) (deltas : List Delta) (vars : Vars)
    (identified : Identified calls) (fragments : List.Forall₂ Fragments calls groups)
    (pieces : deltas.filterMap Delta.toolCall = groups.flatten) :
    (∃ assembly next, (drain (deltas.map .ok) .empty).run vars = .ok assembly next ∧ assembly.calls = calls) ↔
      ∀ pieces ∈ groups, keepsIds pieces = true := by
  obtain ⟨outs,count,nonempty,results,kept⟩ := gather_groups calls groups .empty fragments identified
    (fun _ _ clash => by cases clash)
  obtain ⟨next,ran,_⟩ := drain_leads (deltas.map .ok) .empty _ (talkOf vars) vars.machine.current
    (assemble_deltas deltas .empty) vars ⟨rfl,rfl⟩
  -- what is finished when the stream ends, text and usage set aside
  have assembled : (flush (after deltas .empty)).1.calls = outs.flatten := by
    have same := finished_gathered (after deltas .empty)
    rw [(after_fields deltas .empty).2.2,pieces] at same
    exact same.symm.trans results
  rw [← kept,← flatten_eq_iff outs calls count nonempty,← assembled]
  constructor
  · rintro ⟨assembly,_,given,same⟩
    rw [ran] at given
    cases given
    exact same
  · exact fun same => ⟨_,next,ran,same⟩

def oneCall : ToolCall := ⟨"a","f","[1]"⟩

/-- The call in two pieces, with text and a delta that is empty between them. -/
def twoPieces (id : String) : List Delta :=
  [⟨some "text",some ⟨"a","f","["⟩,none,none⟩,⟨none,none,none,none⟩,⟨none,some ⟨id,"","1]"⟩,none,none⟩]

theorem twoPieces_fragments (id : String) (own : id = "a" ∨ id = "") :
    List.Forall₂ Fragments [oneCall] [[⟨"a","f","["⟩,⟨id,"","1]"⟩]] := by
  refine .cons ⟨_,_,rfl,rfl,rfl,?_,by rfl⟩ .nil
  simpa [oneCall] using own

def fresh : Vars := ⟨[],.new,.idle,[],[],[],[],.new,[]⟩

theorem reassembled_twoPieces :
    ∃ assembly next, (drain ((twoPieces "a").map .ok) .empty).run fresh = .ok assembly next ∧ assembly.calls = [oneCall] :=
  (reassembled_iff [oneCall] _ (twoPieces "a") fresh ⟨by decide,by decide⟩ (twoPieces_fragments "a" (.inl rfl)) rfl).mpr
    (by decide)

/-- The second piece has no id: the call is closed before it, and its arguments are dropped. -/
theorem idless_arguments_dropped :
    Identified [oneCall] ∧ List.Forall₂ Fragments [oneCall] [[⟨"a","f","["⟩,⟨"","","1]"⟩]] ∧
      (twoPieces "").filterMap Delta.toolCall = [⟨"a","f","["⟩,⟨"","","1]"⟩] ∧
      (match (drain ((twoPieces "").map .ok) .empty).run fresh with
      | .ok assembly _ => assembly.calls = [⟨"a","f","["⟩]
      | .error _ _ => False) :=
  ⟨⟨by decide,by decide⟩,twoPieces_fragments "" (.inr rfl),rfl,rfl⟩

end ClawKernel.Loop.Reassembly
