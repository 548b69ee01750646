import ClawKernel.Loop.Conversation
import Mathlib.Data.List.Forall2
import Mathlib.Data.List.TakeWhile

/-! What a delta stream stands for, and when the streaming loop assembles it.
A stream carries each tool call in consecutive pieces: the first has its id and
name, the others repeat the id or leave it empty. The loop takes a piece without
an id for the end of the call.
-/
namespace ClawKernel.Loop.Assembly
open Loop.Conversation Loop.Streaming
open Provider.Types

def Fragments (call : ToolCall) (pieces : List ToolCall) : Prop :=
  ∃ first rest, pieces = first :: rest ∧ first.id = call.id ∧ first.name = call.name ∧
    (∀ piece ∈ rest, piece.id = call.id ∨ piece.id = "") ∧
    String.join (pieces.map ToolCall.arguments) = call.arguments

def Identified (calls : List ToolCall) : Prop :=
  (calls.map ToolCall.id).Nodup ∧ ∀ call ∈ calls, call.id ≠ ""

/-- The deltas stand for the response: its text in order, its calls in pieces, its
finish reason and its usage as last reported. -/
structure Assembles (deltas : List Delta) (response : CompletionResponse) : Prop where
  role : response.message.role = .assistant
  noCallId : response.message.toolCallId = none
  content : String.join (deltas.filterMap Delta.content) = response.message.content
  identified : Identified (response.message.toolCalls.getD [])
  pieces : ∃ groups, List.Forall₂ Fragments (response.message.toolCalls.getD []) groups ∧
    groups.flatten = deltas.filterMap Delta.toolCall
  finishReason : (deltas.filterMap Delta.finishReason).getLast? = some response.finishReason
  usage : (deltas.filterMap Delta.usage).getLast? = some response.usage

/-- No piece without an id carries arguments, and none stands between two pieces
with one id. -/
def keepsIds : List ToolCall → Bool
  | [] => true
  | piece :: rest =>
    (if piece.id = "" then piece.arguments = ""
      else (rest.dropWhile (fun later => later.id ≠ "")).all (fun later => later.id ≠ piece.id)) && keepsIds rest

def after (deltas : List Delta) (start : Assembly) : Assembly :=
  deltas.foldl (fun assembly delta => (takeDelta delta assembly).1) start

theorem assemble_deltas (deltas : List Delta) (start : Assembly) :
    assemble (deltas.map .ok) start = .ok (flush (after deltas start)).1 := by
  induction deltas generalizing start with
  | nil => rfl
  | cons delta rest ih => exact ih _

def gathered (assembly : Assembly) : Assembly := {assembly with content := "", usage := none, finishReason := none}

def finished (assembly : Assembly) : List ToolCall := (flush assembly).1.calls

theorem flush_fields (assembly : Assembly) :
    (flush assembly).1.content = assembly.content ∧ (flush assembly).1.usage = assembly.usage ∧
      gathered (flush assembly).1 = (flush (gathered assembly)).1 := by
  obtain ⟨content,calls,usage,finishReason,partialId,partialName,partialArgs⟩ := assembly
  cases partialId <;> exact ⟨rfl,rfl,rfl⟩

theorem finished_gathered (assembly : Assembly) : finished (gathered assembly) = finished assembly := by
  unfold finished
  rw [← (flush_fields assembly).2.2]
  rfl

theorem takeToolCall_fields (piece : ToolCall) (assembly : Assembly) :
    (takeToolCall piece assembly).1.content = assembly.content ∧
      (takeToolCall piece assembly).1.usage = assembly.usage ∧
      gathered (takeToolCall piece assembly).1 = (takeToolCall piece (gathered assembly)).1 := by
  obtain ⟨content,calls,usage,finishReason,partialId,partialName,partialArgs⟩ := assembly
  by_cases blank : piece.id = ""
  · cases partialId with
    | none => simp [takeToolCall,gathered,blank]
    | some id => by_cases same : "" = id <;> simp [takeToolCall,gathered,flush,blank,same]
  · cases partialId with
    | none => simp [takeToolCall,gathered,flush,blank]
    | some id => by_cases same : piece.id = id <;> simp [takeToolCall,gathered,flush,blank,same]

theorem takeDelta_fields (delta : Delta) (assembly : Assembly) :
    (takeDelta delta assembly).1.content = assembly.content ++ delta.content.getD "" ∧
      (takeDelta delta assembly).1.usage = delta.usage.or assembly.usage ∧
      gathered (takeDelta delta assembly).1 =
        delta.toolCall.elim (gathered assembly) (fun piece => (takeToolCall piece (gathered assembly)).1) := by
  have text : ∀ assembly : Assembly, (takeText delta.content assembly).1 =
      {assembly with content := assembly.content ++ delta.content.getD ""} := by
    intro assembly
    cases given : delta.content with
    | none => simp [takeText]
    | some text => by_cases blank : text = "" <;> simp [takeText,blank]
  cases given : delta.toolCall with
  | none => simp [takeDelta,given,text,gathered]
  | some piece =>
    simp only [takeDelta,given,text,Option.elim]
    obtain ⟨content,usage,gathers⟩ := takeToolCall_fields piece {assembly with
      content := assembly.content ++ delta.content.getD "",
      usage := delta.usage.or assembly.usage,
      finishReason := delta.finishReason.or assembly.finishReason}
    exact ⟨content,usage,gathers⟩

def gather (pieces : List ToolCall) (start : Assembly) : Assembly :=
  pieces.foldl (fun assembly piece => (takeToolCall piece assembly).1) start

theorem after_fields (deltas : List Delta) (start : Assembly) :
    (after deltas start).content = start.content ++ String.join (deltas.filterMap Delta.content) ∧
      (after deltas start).usage = (deltas.filterMap Delta.usage).getLast?.or start.usage ∧
      gathered (after deltas start) =
        gather (deltas.filterMap Delta.toolCall) (gathered start) := by
  induction deltas generalizing start with
  | nil => simp [after,gather]
  | cons delta rest ih =>
    obtain ⟨content,usage,gathers⟩ := takeDelta_fields delta start
    obtain ⟨content',usage',gathers'⟩ := ih (takeDelta delta start).1
    refine ⟨content'.trans ?_,usage'.trans ?_,gathers'.trans ?_⟩
    · rw [content]
      cases given : delta.content <;> simp [given,String.append_assoc]
    · rw [usage]
      cases given : delta.usage with
      | none => simp [given]
      | some reported => simp [given,List.getLast?_cons]
    · rw [gathers]
      cases given : delta.toolCall <;> simp [given,gather]

/-! One piece of a call. -/

theorem piece_starts (piece : ToolCall) (assembly : Assembly) (named : piece.id ≠ "")
    (other : assembly.partialId ≠ some piece.id) :
    (takeToolCall piece assembly).1 = {(flush assembly).1 with
      partialId := some piece.id, partialName := some piece.name, partialArgs := piece.arguments} := by
  have new : piece.id ≠ assembly.partialId.getD "" := by
    cases given : assembly.partialId with
    | none => simpa using named
    | some id =>
      rintro rfl
      exact other (by simp [given])
  simp [takeToolCall,new,named]

theorem piece_continues (piece : ToolCall) (assembly : Assembly) (same : assembly.partialId = some piece.id) :
    (takeToolCall piece assembly).1 = {assembly with partialArgs := assembly.partialArgs ++ piece.arguments} := by
  simp [takeToolCall,same]

theorem piece_blank (piece : ToolCall) (assembly : Assembly) (blank : piece.id = "" ∧ piece.arguments = "")
    (named : assembly.partialId ≠ some "") :
    finished (takeToolCall piece assembly).1 = finished assembly ∧ (takeToolCall piece assembly).1.partialId = none := by
  obtain ⟨content,calls,usage,finishReason,partialId,partialName,partialArgs⟩ := assembly
  cases partialId with
  | none => simp [takeToolCall,blank.1,finished,flush]
  | some id =>
    have other : "" ≠ id := by
      rintro rfl
      exact named rfl
    simp [takeToolCall,blank.1,finished,flush,other]

theorem gather_same (pieces : List ToolCall) (id : String) (same : ∀ piece ∈ pieces, piece.id = id)
    (assembly : Assembly) (current : assembly.partialId = some id) :
    gather pieces assembly = {assembly with
      partialArgs := assembly.partialArgs ++ String.join (pieces.map ToolCall.arguments)} := by
  induction pieces generalizing assembly with
  | nil => simp [gather]
  | cons piece rest ih =>
    have continues := piece_continues piece assembly (by rw [current,same piece List.mem_cons_self])
    have later := ih (fun piece member => same piece (List.mem_cons_of_mem _ member)) (takeToolCall piece assembly).1
      (by rw [continues]; exact current)
    rw [continues] at later
    simpa [gather,continues,String.append_assoc] using later

theorem gather_blank (pieces : List ToolCall) (blank : ∀ piece ∈ pieces, piece.id = "" ∧ piece.arguments = "")
    (assembly : Assembly) (named : assembly.partialId ≠ some "") :
    finished (gather pieces assembly) = finished assembly ∧
      ((gather pieces assembly).partialId = assembly.partialId ∨ (gather pieces assembly).partialId = none) := by
  induction pieces generalizing assembly with
  | nil => exact ⟨rfl,.inl rfl⟩
  | cons piece rest ih =>
    obtain ⟨kept,closed⟩ := piece_blank piece assembly (blank piece List.mem_cons_self) named
    obtain ⟨kept',closed'⟩ := ih (fun piece member => blank piece (List.mem_cons_of_mem _ member))
      (takeToolCall piece assembly).1 (by simp [closed])
    refine ⟨kept'.trans kept,.inr ?_⟩
    rcases closed' with same | none
    · exact same.trans closed
    · exact none

theorem keepsIds_blank (pieces : List ToolCall) (kept : keepsIds pieces = true) :
    ∀ piece ∈ pieces, piece.id = "" → piece.arguments = "" := by
  induction pieces with
  | nil => simp
  | cons first rest ih =>
    simp only [keepsIds,Bool.and_eq_true] at kept
    intro piece member blank
    rcases List.mem_cons.mp member with rfl | inside
    · simpa [blank] using kept.1
    · exact ih kept.2 piece inside blank

theorem keepsIds_append (first later : List ToolCall) (kept : keepsIds (first ++ later) = true) :
    keepsIds later = true := by
  induction first with
  | nil => exact kept
  | cons piece rest ih =>
    simp only [List.cons_append,keepsIds,Bool.and_eq_true] at kept
    exact ih kept.2

theorem fragments_split (call : ToolCall) (first : ToolCall) (rest later : List ToolCall) (named : call.id ≠ "")
    (starts : first.id = call.id) (ids : ∀ piece ∈ rest, piece.id = call.id ∨ piece.id = "")
    (kept : keepsIds (first :: rest ++ later) = true) :
    ∃ same blank, rest = same ++ blank ∧ (∀ piece ∈ same, piece.id = call.id) ∧
      ∀ piece ∈ blank, piece.id = "" ∧ piece.arguments = "" := by
  refine ⟨rest.takeWhile (fun piece => piece.id ≠ ""),rest.dropWhile (fun piece => piece.id ≠ ""),
    List.takeWhile_append_dropWhile.symm,?_,?_⟩
  · intro piece member
    have named' : piece.id ≠ "" := by simpa using List.mem_takeWhile_imp member
    exact (ids piece ((List.takeWhile_sublist _).mem member)).resolve_right named'
  · intro piece member
    have inside : piece ∈ rest := (List.dropWhile_sublist _).mem member
    have found : piece ∈ (rest ++ later).dropWhile (fun piece => piece.id ≠ "") := by
      rw [List.dropWhile_append,if_neg (by simpa using List.ne_nil_of_mem member)]
      exact List.mem_append_left later member
    have apart := kept
    simp only [List.cons_append,keepsIds,starts,if_neg named,Bool.and_eq_true,List.all_eq_true,decide_eq_true_eq] at apart
    have blank : piece.id = "" := (ids piece inside).resolve_left (apart.1 piece found)
    exact ⟨blank,keepsIds_blank _ kept piece (by simp [inside]) blank⟩

theorem gather_append (first later : List ToolCall) (start : Assembly) :
    gather (first ++ later) start = gather later (gather first start) :=
  List.foldl_append

theorem join_blank (pieces : List ToolCall) (blank : ∀ piece ∈ pieces, piece.id = "" ∧ piece.arguments = "") :
    String.join (pieces.map ToolCall.arguments) = "" := by
  induction pieces with
  | nil => rfl
  | cons piece rest ih =>
    simp [(blank piece List.mem_cons_self).2,ih (fun piece member => blank piece (List.mem_cons_of_mem _ member))]

theorem gather_call (call : ToolCall) (pieces later : List ToolCall) (assembly : Assembly)
    (fragments : Fragments call pieces) (named : call.id ≠ "") (other : assembly.partialId ≠ some call.id)
    (kept : keepsIds (pieces ++ later) = true) :
    finished (gather pieces assembly) = finished assembly ++ [call] ∧
      ((gather pieces assembly).partialId = some call.id ∨ (gather pieces assembly).partialId = none) := by
  obtain ⟨first,rest,rfl,starts,name,ids,joined⟩ := fragments
  obtain ⟨same,blank,rfl,keeps,empty⟩ := fragments_split call first rest later named starts ids kept
  have started := piece_starts first assembly (starts ▸ named) (starts ▸ other)
  have continued := gather_same same first.id (fun piece member => (keeps piece member).trans starts.symm)
    (takeToolCall first assembly).1 (by rw [started])
  have parts : gather (first :: (same ++ blank)) assembly = gather blank (gather same (takeToolCall first assembly).1) :=
    gather_append same blank _
  obtain ⟨kept',closed⟩ := gather_blank blank empty (gather same (takeToolCall first assembly).1)
    (by rw [continued,started]; simpa [starts] using named)
  rw [parts,kept',continued,started]
  refine ⟨?_,?_⟩
  · have arguments : first.arguments ++ String.join (same.map ToolCall.arguments) = call.arguments := by
      simpa [join_blank blank empty] using joined
    simp [finished,flush,starts,name,arguments]
  · rw [continued,started] at closed
    simpa [starts] using closed

theorem gather_calls (calls : List ToolCall) (groups : List (List ToolCall)) (assembly : Assembly)
    (fragments : List.Forall₂ Fragments calls groups) (identified : Identified calls)
    (other : ∀ call ∈ calls, assembly.partialId ≠ some call.id) (kept : keepsIds groups.flatten = true) :
    finished (gather groups.flatten assembly) = finished assembly ++ calls := by
  induction fragments generalizing assembly with
  | nil => simp [gather]
  | @cons call pieces calls groups now rest ih =>
    obtain ⟨distinct,named⟩ := identified
    rw [List.map_cons,List.nodup_cons] at distinct
    rw [List.flatten_cons] at kept ⊢
    obtain ⟨added,current⟩ := gather_call call pieces groups.flatten assembly now (named call List.mem_cons_self)
      (other call List.mem_cons_self) kept
    have apart : ∀ later ∈ calls, (gather pieces assembly).partialId ≠ some later.id := by
      intro later member same
      rcases current with pending | closed
      · rw [pending,Option.some.injEq] at same
        exact distinct.1 (same ▸ List.mem_map_of_mem member)
      · simp [closed] at same
    have later := ih (gather pieces assembly) ⟨distinct.2,fun later member => named later (List.mem_cons_of_mem _ member)⟩
      apart (keepsIds_append _ _ kept)
    rw [gather_append,later,added]
    simp

/-- A stream that keeps its ids is assembled to the reply that `complete` returns. -/
theorem assembles_reply (deltas : List Delta) (response : CompletionResponse) (assembles : Assembles deltas response)
    (kept : keepsIds (deltas.filterMap Delta.toolCall) = true) (plain : response.message.toolCalls ≠ some []) :
    (assemble (deltas.map .ok) .empty).map replyOf = .ok ⟨response.message,response.usage⟩ := by
  obtain ⟨groups,fragments,pieces⟩ := assembles.pieces
  obtain ⟨content,usage,gathers⟩ := after_fields deltas .empty
  obtain ⟨flushedContent,flushedUsage,-⟩ := flush_fields (after deltas .empty)
  have calls : (flush (after deltas .empty)).1.calls = response.message.toolCalls.getD [] := by
    have all := gather_calls _ groups .empty fragments assembles.identified (by simp [Assembly.empty]) (pieces ▸ kept)
    have same := finished_gathered (after deltas .empty)
    rw [gathers,← pieces] at same
    exact same.symm.trans all
  have text : (flush (after deltas .empty)).1.content = response.message.content := by
    rw [flushedContent,content,← assembles.content]
    simp [Assembly.empty]
  have reported : (flush (after deltas .empty)).1.usage = some response.usage := by
    rw [flushedUsage,usage,assembles.usage]
    rfl
  have message : assistantMessage (flush (after deltas .empty)).1 = response.message := by
    rw [assistantMessage,calls,text]
    obtain ⟨role,noCallId,-,-,-,-,-⟩ := assembles
    obtain ⟨_,_,⟨_,_,toolCalls,_⟩,_,_⟩ := response
    subst role noCallId
    match toolCalls with
    | none => rfl
    | some [] => exact absurd rfl plain
    | some (_ :: _) => rfl
  rw [assemble_deltas]
  change Except.ok (replyOf _) = _
  rw [replyOf,message,turnUsage,reported]

end ClawKernel.Loop.Assembly
