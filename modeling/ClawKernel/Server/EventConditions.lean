import ClawKernel.Runtime.RuleMatching

/-! Conditions of event triggers: what the path of a condition is resolved against, and the
fields of an event that a condition is documented to name.
-/
namespace ClawKernel.Server.EventConditions
open Lib Lib.Serde
open Server.EventTrigger
open Runtime.RuleMatching (Formed ExtensionEvent BusEvent ownFields)

/-- An event of the bus. `reloaded` is a script's whose path is not Unicode, which cannot be written. -/
inductive SentEvent where
  | written (event : Event) (formed : Formed event)
  | extension (event : ExtensionEvent)
  | reloaded (result : Json.Value)

def extensionFields : ExtensionEvent → List (String × Json.Value)
  | .toolLoading name => [("name",.string name)]
  | .toolLoaded name result => [("name",.string name),("result",result)]
  | .toolUnloaded name => [("name",.string name)]
  | .scriptReloaded path result => [("path",.string path),("result",result)]
  | .providerRegistered name => [("name",.string name)]

/-- The fields of the event with their values, as far as these can be written. -/
def SentEvent.fields : SentEvent → List (String × Json.Value)
  | .written event formed => ownFields (.written event formed)
  | .extension event => extensionFields event
  | .reloaded result => [("result",result)]

/-- The event that is written, if it can be. -/
def SentEvent.event : SentEvent → Option Event
  | .written event _ => some event
  | .extension event => some (.extension event.toTree)
  | .reloaded _ => none

/-- `condition_matches`, for any event. -/
def sentMatches (event : SentEvent) (condition : Json.Value) : Bool :=
  match event.event with
  | some event => conditionMatches event condition
  | none => ((condition.get "field").bind Json.Value.asStr).isNone || (condition.get "equals").isNone

/-- The documented form of a condition. -/
def documented (path : String) (value : Json.Value) : Json.Value :=
  .object [("equals",value),("field",.string path)]

def parts (path : String) : List String := splitDots path.toList []

/-- The path leads from a field of the event to a value that equals `value`. -/
def Selects (event : SentEvent) (path : String) (value : Json.Value) : Prop :=
  ∃ found, navigate (parts path) (.object event.fields) = some found ∧ found.equals value = true

/-- The path begins with a field of the event. -/
def Begins (event : SentEvent) (path : String) : Prop :=
  ∃ name rest, parts path = name :: rest ∧ name ∈ keys event.fields

theorem conditionMatches_documented (event : Event) (path : String) (value : Json.Value) :
    conditionMatches event (documented path value) =
      (match navigate (parts path) (toValue event) with
      | none => false
      | some current => current.same value) := rfl

theorem sentMatches_event (event : SentEvent) (path : String) (value : Json.Value) (written : Event)
    (same : event.event = some written) :
    sentMatches event (documented path value) =
      (match navigate (parts path) (toValue written) with
      | none => false
      | some current => current.same value) := by
  rw [sentMatches,same]
  exact conditionMatches_documented written path value

/-- What is looked up first is the name of the variant. -/
theorem navigate_variant (variant name : String) (rest : List String) (value : Json.Value) (other : name ≠ variant) :
    navigate (name :: rest) (.object [(variant,value)]) = none := by
  have missed : List.lookup name [(variant,value)] = none := by
    rw [List.lookup_cons,beq_false_of_ne other]
    rfl
  simp only [navigate,Json.Value.get,missed]

theorem splitDots_append (name rest part : List Char) (plain : '.' ∉ name) :
    splitDots (name ++ '.' :: rest) part = String.ofList (part.reverse ++ name) :: splitDots rest [] := by
  induction name generalizing part with
  | nil => simp [splitDots]
  | cons c name ih =>
    obtain ⟨first,later⟩ := List.ne_and_not_mem_of_not_mem_cons plain
    rw [List.cons_append,splitDots,if_neg (Ne.symm first),ih (c :: part) later]
    simp

/-- A path under the variant's name selects as a path from a field is documented to. -/
theorem conditionMatches_under (event : Event) (variant path : String) (members : List (String × Json.Value))
    (value : Json.Value) (plain : '.' ∉ variant.toList) (written : toValue event = .object [(variant,.object members)]) :
    conditionMatches event (documented (String.ofList (variant.toList ++ '.' :: path.toList)) value) =
      (match navigate (parts path) (.object members) with
      | none => false
      | some current => current.same value) := by
  have split : parts (String.ofList (variant.toList ++ '.' :: path.toList)) = variant :: parts path := by
    rw [parts,String.toList_ofList,splitDots_append _ _ _ plain,List.reverse_nil,List.nil_append,String.ofList_toList]
    rfl
  rw [conditionMatches_documented,split,written,navigate,Json.Value.get,List.lookup_cons_self]

/-- An event is written under the name of its variant, which is no field of it. -/
theorem variant_cases (event : Event) (formed : Formed event) (name : String)
    (known : name ∈ keys (SentEvent.written event formed).fields) :
    ∃ variant members, toValue event = .object [(variant,.object members)] ∧ name ≠ variant := by
  cases formed with
  | inl bare =>
    subst bare
    cases known
  | inr formed =>
    obtain ⟨variant,members,written,distinct⟩ := formed
    have own : keys (SentEvent.written event (.inr ⟨variant,members,written,distinct⟩)).fields = keys members := by
      simp only [SentEvent.fields,ownFields,Runtime.RuleMatching.eventToPayload,written]
    rw [own] at known
    exact ⟨variant,members,written,fun same => (List.nodup_cons.mp distinct).1 (same ▸ known)⟩

theorem extension_known (event : ExtensionEvent) (name : String) (known : name ∈ keys (extensionFields event)) :
    name ≠ "Extension" := by
  have names : ∀ field ∈ keys (extensionFields event), field ≠ "Extension" := by
    cases event with
    | _ => simp [extensionFields,keys]
  exact names name known

/-- No path that begins with a field of the event leads anywhere. -/
theorem sentMatches_known (event : SentEvent) (path : String) (value : Json.Value) (begins : Begins event path) :
    sentMatches event (documented path value) = false := by
  obtain ⟨name,rest,split,known⟩ := begins
  cases event with
  | written event formed =>
    obtain ⟨variant,members,written,other⟩ := variant_cases event formed name known
    rw [sentMatches_event _ path value event rfl,split,written,navigate_variant _ _ _ _ other]
  | extension event =>
    have other := extension_known event name known
    have missed : navigate (name :: rest) (toValue (.extension event.toTree)) = none := navigate_variant _ _ _ _ other
    rw [sentMatches_event _ path value (.extension event.toTree) rfl,split,missed]
  | reloaded result => rfl

/-- A condition on a field of the event does what it is documented to do exactly where the event
has another value there. -/
theorem selects_as_documented_iff (event : SentEvent) (path : String) (value : Json.Value) (begins : Begins event path) :
    (sentMatches event (documented path value) = true ↔ Selects event path value) ↔ ¬Selects event path value := by
  rw [sentMatches_known event path value begins]
  simp

def started : SentEvent := .written (.agentStarted "agent-001") (Runtime.RuleMatching.formed_plain _ rfl)

theorem started_begins : Begins started "agent_id" := ⟨"agent_id",[],by decide,by decide⟩

theorem selects_as_documented_elsewhere :
    Begins started "agent_id" ∧
      ((sentMatches started (documented "agent_id" (.string "agent-002")) = true ↔
        Selects started "agent_id" (.string "agent-002")) ↔ ¬Selects started "agent_id" (.string "agent-002")) :=
  ⟨started_begins,selects_as_documented_iff started "agent_id" (.string "agent-002") started_begins⟩

/-- The condition of the documentation, on the event it names. -/
theorem documented_condition_misses :
    Begins started "agent_id" ∧ Selects started "agent_id" (.string "agent-001") ∧
      sentMatches started (documented "agent_id" (.string "agent-001")) = false :=
  ⟨started_begins,⟨.string "agent-001",rfl,by decide⟩,by decide⟩

end ClawKernel.Server.EventConditions
