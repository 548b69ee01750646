import ClawKernel.A2A.Codec
import ClawKernel.Runtime.TriggerRegistry

/-! Which rules an event fires: what `process_event` publishes for the rules of a registry,
against the rules that watch the event and ask nothing else of it.
-/
namespace ClawKernel.Runtime.RuleMatching
open Lib Lib.Serde
open Runtime.TriggerRegistry
open Server.EventTrigger (Event toValue)
open Server.Webhook (stripPrefix)

/-- What an event is written as: the name of its variant with its fields, but for the one variant
that has none. -/
def Formed (event : Event) : Prop :=
  event = .shutdown ∨ ∃ variant members, toValue event = .object [(variant,.object members)] ∧
    (keys ((variant,.object members) :: members)).Nodup

theorem formed_of (event : Event) (variant : String) (members : List (String × Json.Value))
    (written : toValue event = .object [(variant,.object members)]) (distinct : (variant :: keys members).Nodup) :
    Formed event :=
  .inr ⟨variant,members,written,distinct⟩

/-- Events that carry no record of their own. -/
def plain : Event → Bool
  | .a2a _ => false
  | .extension _ => false
  | .triggerFired _ => false
  | _ => true

theorem formed_plain (event : Event) (simple : plain event = true) : Formed event := by
  cases event with
  | a2a _ => cases simple
  | extension _ => cases simple
  | triggerFired _ => cases simple
  | shutdown => exact .inl rfl
  | _ => exact formed_of _ _ _ rfl (by simp [keys])

theorem formed_a2a (message : A2A.Codec.A2AMessage) : Formed (.a2a message.toTree) :=
  formed_of _ "A2A" message.members rfl (by simp [keys,A2A.Codec.A2AMessage.members])

theorem formed_triggerFired (stamp : Stamp) (triggerId : String) (payload : Json.Value) (targetAgent : Option String) :
    Formed (.triggerFired (triggerEvent stamp triggerId payload targetAgent)) :=
  formed_of _ "TriggerFired" _ rfl (by simp [keys])

/-- Results are carried as their JSON, and a path that is Unicode as its text. -/
inductive ExtensionEvent where
  | toolLoading (name : String)
  | toolLoaded (name : String) (result : Json.Value)
  | toolUnloaded (name : String)
  | scriptReloaded (path : String) (result : Json.Value)
  | providerRegistered (name : String)

def ExtensionEvent.toTree : ExtensionEvent → Json.Value
  | .toolLoading name => .object [("ToolLoading",.object [("name",.string name)])]
  | .toolLoaded name result => .object [("ToolLoaded",.object [("name",.string name),("result",result)])]
  | .toolUnloaded name => .object [("ToolUnloaded",.object [("name",.string name)])]
  | .scriptReloaded path result => .object [("ScriptReloaded",.object [("path",.string path),("result",result)])]
  | .providerRegistered name => .object [("ProviderRegistered",.object [("name",.string name)])]

theorem formed_extension (event : ExtensionEvent) : Formed (.extension event.toTree) := by
  cases event with
  | _ => exact formed_of _ "Extension" _ rfl (by simp [keys])

/-- An event of the bus. An extension event that names a path which is not Unicode cannot be written. -/
inductive BusEvent where
  | written (event : Event) (formed : Formed event)
  | unwritten

/-- The event, as far as its tag and type go. -/
def BusEvent.event : BusEvent → Event
  | .written event _ => event
  | .unwritten => .extension .null

def eventToPayload : BusEvent → Json.Value
  | .written event _ => toValue event
  | .unwritten => .null

/-- The rules of a registry, under their ids. -/
structure Rules where
  entries : List EventTriggerRule
  distinct : (entries.map EventTriggerRule.triggerId).Nodup

/-- The `count`-th event that is published for `event`. -/
def publication (stamp : Nat → Stamp) (event : BusEvent) (count : Nat) (rule : EventTriggerRule) : Event :=
  .triggerFired (triggerEvent (stamp count) rule.triggerId (eventToPayload event) rule.targetAgent)

/-- The body of the loop over the rules. -/
def processRule (stamp : Nat → Stamp) (event : BusEvent) (published : List Event) (rule : EventTriggerRule) : List Event :=
  if !typeTagMatches rule.watchEvent (eventTypeTag event.event) event.event then published
  else
    match rule.payloadFilter with
    | none => published ++ [publication stamp event published.length rule]
    | some filter =>
      if !payloadMatches filter (eventToPayload event) then published
      else published ++ [publication stamp event published.length rule]

def processEvent (stamp : Nat → Stamp) (rules : List EventTriggerRule) (event : BusEvent) : List Event :=
  rules.foldl (processRule stamp event) []

/-- One publication for each of the rules. -/
def answers (stamp : Nat → Stamp) (event : BusEvent) (rules : List EventTriggerRule) : List Event :=
  rules.zipIdx.map (fun rule => publication stamp event rule.2 rule.1)

/-- A rule watches the tag of an event, or the type of a custom event. -/
def watches (rule : EventTriggerRule) (event : BusEvent) : Bool :=
  rule.watchEvent == eventTypeTag event.event ||
    (match event.event with
    | .custom eventType _ => rule.watchEvent == "custom." ++ eventType
    | _ => false)

/-- The fields of what an event is written as, at the top and one level below. -/
def serialisedFields (event : BusEvent) : List (String × Json.Value) :=
  match eventToPayload event with
  | .object outer => outer.flatMap (fun member => member :: (match member.2 with | .object inner => inner | _ => []))
  | _ => []

/-- The fields of the event's variant. -/
def ownFields (event : BusEvent) : List (String × Json.Value) :=
  match eventToPayload event with
  | .object [(_,.object members)] => members
  | _ => []

def asks (wanted fields : List (String × Json.Value)) : Bool :=
  wanted.all (fun pair => fields.any (fun field => field.1 == pair.1 && field.2.equals pair.2))

/-- The rule watches the event, and all that its filter asks for is among the fields. -/
def matchesFields (fields : BusEvent → List (String × Json.Value)) (event : BusEvent) (rule : EventTriggerRule) : Bool :=
  watches rule event &&
    (match rule.payloadFilter with
    | none => true
    | some (.object wanted) => asks wanted (fields event)
    | some _ => false)

/-- One event is published for each rule that matches, and none for any other. -/
def FiresExactly (fields : BusEvent → List (String × Json.Value)) (rules : Rules) (event : BusEvent) : Prop :=
  ∀ stamp, processEvent stamp rules.entries event =
    answers stamp event (rules.entries.filter (matchesFields fields event))

/-- What the code tests of a rule. -/
def fires (event : BusEvent) (rule : EventTriggerRule) : Bool :=
  typeTagMatches rule.watchEvent (eventTypeTag event.event) event.event &&
    (match rule.payloadFilter with
    | none => true
    | some filter => payloadMatches filter (eventToPayload event))

theorem fires_written (event : Event) (formed : Formed event) (rule : EventTriggerRule) :
    fires (.written event formed) rule = ruleMatches rule event := rfl

theorem processRule_eq (stamp : Nat → Stamp) (event : BusEvent) (published : List Event) (rule : EventTriggerRule) :
    processRule stamp event published rule =
      if fires event rule then published ++ [publication stamp event published.length rule] else published := by
  unfold processRule fires
  cases typeTagMatches rule.watchEvent (eventTypeTag event.event) event.event with
  | false => rfl
  | true =>
    cases rule.payloadFilter with
    | none => rfl
    | some filter => cases asked : payloadMatches filter (eventToPayload event) <;> simp [asked]

theorem answers_concat (stamp : Nat → Stamp) (event : BusEvent) (rules : List EventTriggerRule) (rule : EventTriggerRule) :
    answers stamp event (rules ++ [rule]) = answers stamp event rules ++ [publication stamp event rules.length rule] := by
  simp [answers,List.zipIdx_append]

@[simp] theorem length_answers (stamp : Nat → Stamp) (event : BusEvent) (rules : List EventTriggerRule) :
    (answers stamp event rules).length = rules.length := by
  simp [answers]

theorem processEvent_eq (stamp : Nat → Stamp) (rules : List EventTriggerRule) (event : BusEvent) :
    processEvent stamp rules event = answers stamp event (rules.filter (fires event)) := by
  induction rules using List.reverseRecOn with
  | nil => rfl
  | append_singleton rules rule ih =>
    unfold processEvent at ih ⊢
    rw [List.foldl_append,ih,List.foldl_cons,List.foldl_nil,processRule_eq,List.filter_append]
    cases chosen : fires event rule with
    | false => simp [chosen]
    | true => simp [chosen,answers_concat]

/-- The trigger id that a published event carries. -/
def publishedId : Event → Option Json.Value
  | .triggerFired event => event.get "trigger_id"
  | _ => none

theorem map_publishedId (stamp : Nat → Stamp) (event : BusEvent) (rules : List EventTriggerRule) :
    (answers stamp event rules).map publishedId = rules.map (fun rule => some (.string rule.triggerId)) := by
  have each (count : Nat) (rule : EventTriggerRule) :
      publishedId (publication stamp event count rule) = some (.string rule.triggerId) := by
    rfl
  unfold answers
  rw [List.map_map]
  calc rules.zipIdx.map (publishedId ∘ fun rule => publication stamp event rule.2 rule.1)
      = rules.zipIdx.map ((fun rule => some (.string rule.triggerId)) ∘ Prod.fst) :=
        List.map_congr_left (fun rule _ => each rule.2 rule.1)
    _ = rules.map (fun rule => some (.string rule.triggerId)) := by
        rw [← List.map_map,List.zipIdx_map_fst]

/-- With distinct ids, the events published tell which rules have fired. -/
theorem firesExactly_iff (fields : BusEvent → List (String × Json.Value)) (rules : Rules) (event : BusEvent) :
    FiresExactly fields rules event ↔ ∀ rule ∈ rules.entries, fires event rule = matchesFields fields event rule := by
  constructor
  · intro exact rule member
    have same := congrArg (List.map publishedId) (exact (fun _ => ⟨"",""⟩))
    rw [processEvent_eq,map_publishedId,map_publishedId] at same
    have found (test : EventTriggerRule → Bool) :
        some (Json.Value.string rule.triggerId) ∈
          (rules.entries.filter test).map (fun rule => some (Json.Value.string rule.triggerId)) ↔ test rule = true := by
      constructor
      · intro inside
        obtain ⟨other,chosen,equal⟩ := List.mem_map.mp inside
        obtain ⟨known,tested⟩ := List.mem_filter.mp chosen
        have ids : other.triggerId = rule.triggerId := by simpa using equal
        rwa [← List.inj_on_of_nodup_map rules.distinct known member ids]
      · exact fun tested => List.mem_map_of_mem (List.mem_filter.mpr ⟨member,tested⟩)
    rw [Bool.eq_iff_iff,← found,← found,same]
  · intro all stamp
    rw [processEvent_eq,List.filter_congr all]

theorem stripPrefix_custom (watchEvent sub : String) :
    stripPrefix "custom." watchEvent = some sub ↔ watchEvent = "custom." ++ sub := by
  constructor
  · intro found
    unfold stripPrefix at found
    split at found
    · rename_i starts
      obtain ⟨rest,same⟩ := starts
      rw [← same,← String.length_toList,List.drop_left,Option.some.injEq] at found
      rw [← found,← String.toList_inj,String.toList_append,@String.toList_ofList rest]
      exact same.symm
    · cases found
  · rintro rfl
    have := Server.Webhook.stripPrefix_append "custom." sub.toList
    rwa [String.ofList_append,String.ofList_toList,String.ofList_toList] at this

theorem typeTagMatches_eq (rule : EventTriggerRule) (event : BusEvent) :
    typeTagMatches rule.watchEvent (eventTypeTag event.event) event.event = watches rule event := by
  unfold typeTagMatches watches
  by_cases same : rule.watchEvent = eventTypeTag event.event
  · simp [same]
  · rw [if_neg same,beq_false_of_ne same,Bool.false_or]
    cases given : stripPrefix "custom." rule.watchEvent with
    | some sub =>
      rw [stripPrefix_custom] at given
      rw [given]
      cases event.event with
      | custom eventType data =>
        rw [Bool.eq_iff_iff,beq_iff_eq,beq_iff_eq,String.append_right_inj]
        exact eq_comm
      | _ => rfl
    | none =>
      cases event.event with
      | custom eventType data =>
        refine (beq_false_of_ne (fun named => ?_)).symm
        rw [(stripPrefix_custom _ _).mpr named] at given
        cases given
      | _ => rfl

/-- With no name twice, a member is found by its name, in whatever order the map was filled. -/
theorem lookup_reverse (members : List (String × Json.Value)) (distinct : (keys members).Nodup) (name : String) :
    members.reverse.lookup name = members.lookup name := by
  have turned : (keys members.reverse).Nodup := by
    rw [keys,List.map_reverse]
    exact List.nodup_reverse.mpr distinct
  cases found : members.lookup name with
  | some value =>
    have member := Json.mem_of_lookup name value members found
    exact lookup_of_mem members.reverse turned name value (List.mem_reverse.mpr member)
  | none =>
    rw [List.lookup_eq_none_iff] at found ⊢
    exact fun member inside => found member (List.mem_reverse.mp inside)

theorem lookup_any (members : List (String × Json.Value)) (distinct : (keys members).Nodup) (pair : String × Json.Value) :
    (match members.lookup pair.1 with
      | some value => value.equals pair.2
      | none => false) = members.any (fun field => field.1 == pair.1 && field.2.equals pair.2) := by
  cases found : members.lookup pair.1 with
  | none =>
    rw [List.lookup_eq_none_iff] at found
    refine (List.any_eq_false.mpr (fun field inside => ?_)).symm
    have other : pair.1 ≠ field.1 := by simpa using found field inside
    simp [Ne.symm other]
  | some value =>
    rw [Bool.eq_iff_iff,List.any_eq_true]
    constructor
    · exact fun equal => ⟨(pair.1,value),Json.mem_of_lookup _ _ _ found,by simpa using equal⟩
    · rintro ⟨⟨name,other⟩,inside,equal⟩
      obtain ⟨same,equal⟩ := Bool.and_eq_true_iff.mp equal
      obtain rfl := eq_of_beq same
      rw [lookup_of_mem members distinct _ other inside,Option.some.injEq] at found
      exact found ▸ equal

/-- The map of the code has the fields of both levels. -/
theorem payloadMatches_eq (wanted members : List (String × Json.Value)) (variant : String)
    (distinct : (keys ((variant,.object members) :: members)).Nodup) :
    payloadMatches (.object wanted) (.object [(variant,.object members)]) =
      asks wanted ((variant,.object members) :: members) := by
  have flat : payloadMap [(variant,.object members)] = (variant,.object members) :: members := by
    simp [payloadMap]
  refine congrArg wanted.all (funext (fun pair => ?_))
  rw [flat,lookup_reverse _ distinct]
  exact lookup_any _ distinct pair

/-- The event is written without fields, or not at all. -/
def Bare : BusEvent → Prop
  | .written event _ => event = .shutdown
  | .unwritten => True

def EmptyOnBare (event : BusEvent) (rule : EventTriggerRule) : Prop :=
  Bare event ∧ rule.payloadFilter = some (.object [])

/-- The filter asks for the name of the variant, with all of its fields, and for nothing that the
event has not. -/
def NamesVariant (event : BusEvent) (rule : EventTriggerRule) : Prop :=
  ∃ variant members wanted, eventToPayload event = .object [(variant,.object members)] ∧
    rule.payloadFilter = some (.object wanted) ∧ (∃ pair ∈ wanted, pair.1 = variant) ∧
    asks wanted ((variant,.object members) :: members) = true

theorem bare_or (event : BusEvent) :
    Bare event ∧ (∀ members, eventToPayload event ≠ .object members) ∨
      ¬Bare event ∧ ∃ variant members, eventToPayload event = .object [(variant,.object members)] ∧
        (keys ((variant,.object members) :: members)).Nodup := by
  cases event with
  | unwritten => exact .inl ⟨trivial,fun members same => by cases same⟩
  | written event formed =>
    by_cases bare : event = .shutdown
    · subst bare
      exact .inl ⟨rfl,fun members same => by cases same⟩
    · exact .inr ⟨bare,formed.resolve_left bare⟩

theorem payloadMatches_bare (filter payload : Json.Value) (bare : ∀ members, payload ≠ .object members) :
    payloadMatches filter payload = false := by
  cases payload with
  | object members => exact absurd rfl (bare members)
  | _ => cases filter <;> rfl

theorem asks_nil (wanted : List (String × Json.Value)) : asks wanted [] = wanted.isEmpty := by
  cases wanted <;> rfl

theorem asks_cons (wanted members : List (String × Json.Value)) (variant : String) (content : Json.Value)
    (other : ∀ pair ∈ wanted, pair.1 ≠ variant) : asks wanted ((variant,content) :: members) = asks wanted members := by
  unfold asks
  rw [Bool.eq_iff_iff,List.all_eq_true,List.all_eq_true]
  refine forall_congr' (fun pair => forall_congr' (fun member => ?_))
  rw [List.any_cons,beq_false_of_ne (Ne.symm (other pair member)),Bool.false_and,Bool.false_or]

/-- A name that is no member's is not asked for with success. -/
theorem asks_absent (wanted members : List (String × Json.Value)) (pair : String × Json.Value) (member : pair ∈ wanted)
    (absent : pair.1 ∉ keys members) : asks wanted members = false := by
  refine Bool.eq_false_iff.mpr (fun asked => ?_)
  obtain ⟨field,inside,equal⟩ := List.any_eq_true.mp (List.all_eq_true.mp asked pair member)
  exact absent (List.mem_map.mpr ⟨field,inside,eq_of_beq (Bool.and_eq_true_iff.mp equal).1⟩)

section Rule
variable (event : BusEvent) (rule : EventTriggerRule)

theorem fields_bare (bare : ∀ members, eventToPayload event ≠ .object members) :
    serialisedFields event = [] ∧ ownFields event = [] := by
  unfold serialisedFields ownFields
  cases payload : eventToPayload event with
  | object members => exact absurd payload (bare members)
  | _ => exact ⟨rfl,rfl⟩

theorem fields_formed (variant : String) (members : List (String × Json.Value))
    (formed : eventToPayload event = .object [(variant,.object members)]) :
    serialisedFields event = (variant,.object members) :: members ∧ ownFields event = members := by
  unfold serialisedFields ownFields
  rw [formed]
  simp

theorem serialised_filter (wanted : List (String × Json.Value)) :
    payloadMatches (.object wanted) (eventToPayload event) = asks wanted (serialisedFields event) ↔
      ¬(Bare event ∧ wanted = []) := by
  rcases bare_or event with ⟨bare,unwritten⟩ | ⟨written,variant,members,payload,distinct⟩
  · rw [payloadMatches_bare _ _ unwritten,(fields_bare event unwritten).1,asks_nil]
    cases wanted <;> simp [bare]
  · rw [payload,payloadMatches_eq wanted members variant distinct,(fields_formed event variant members payload).1]
    simp [written]

theorem own_filter (wanted : List (String × Json.Value)) (filtered : rule.payloadFilter = some (.object wanted)) :
    payloadMatches (.object wanted) (eventToPayload event) = asks wanted (ownFields event) ↔
      ¬(Bare event ∧ wanted = []) ∧ ¬NamesVariant event rule := by
  rcases bare_or event with ⟨bare,unwritten⟩ | ⟨written,variant,members,payload,distinct⟩
  · have none : ¬NamesVariant event rule := by
      rintro ⟨variant,members,_,same,_⟩
      exact unwritten _ same
    rw [payloadMatches_bare _ _ unwritten,(fields_bare event unwritten).2,asks_nil]
    cases wanted <;> simp [bare,none]
  · have names : NamesVariant event rule ↔
        (∃ pair ∈ wanted, pair.1 = variant) ∧ asks wanted ((variant,.object members) :: members) = true := by
      constructor
      · rintro ⟨_,_,_,same,asked,named,all⟩
        rw [payload] at same
        rw [filtered] at asked
        cases same
        cases asked
        exact ⟨named,all⟩
      · exact fun ⟨named,all⟩ => ⟨variant,members,wanted,payload,filtered,named,all⟩
    rw [payload,payloadMatches_eq wanted members variant distinct,(fields_formed event variant members payload).2,names]
    by_cases named : ∃ pair ∈ wanted, pair.1 = variant
    · obtain ⟨pair,member,same⟩ := named
      have absent : pair.1 ∉ keys members := same ▸ (List.nodup_cons.mp distinct).1
      rw [asks_absent wanted members pair member absent]
      simp only [written,false_and,not_false_eq_true,true_and,show ∃ pair ∈ wanted, pair.1 = variant from ⟨pair,member,same⟩]
      exact Bool.eq_false_iff
    · rw [asks_cons wanted members variant _ (fun pair member same => named ⟨pair,member,same⟩)]
      simp [written,named]

theorem serialised_iff : fires event rule = matchesFields serialisedFields event rule ↔
    (watches rule event = true → ¬EmptyOnBare event rule) := by
  unfold fires matchesFields EmptyOnBare
  rw [typeTagMatches_eq]
  cases watches rule event with
  | false => simp
  | true =>
    cases filtered : rule.payloadFilter with
    | none => simp
    | some filter =>
      cases filter with
      | object wanted => simpa using serialised_filter event wanted
      | _ => simp [payloadMatches]

theorem own_iff : fires event rule = matchesFields ownFields event rule ↔
    (watches rule event = true → ¬EmptyOnBare event rule ∧ ¬NamesVariant event rule) := by
  unfold fires matchesFields EmptyOnBare
  rw [typeTagMatches_eq]
  cases watches rule event with
  | false => simp
  | true =>
    cases filtered : rule.payloadFilter with
    | none => simp [NamesVariant,filtered]
    | some filter =>
      cases filter with
      | object wanted => simpa using own_filter event rule wanted filtered
      | _ => simp [payloadMatches,NamesVariant,filtered]

end Rule

/-- The rules fire exactly on the events that match when none that watches the event asks for
nothing of an event written without fields; and none names the event's variant with all its
fields, where that is not a field. -/
theorem rules_fire (rules : Rules) (event : BusEvent) :
    (FiresExactly serialisedFields rules event ↔
      ∀ rule ∈ rules.entries, watches rule event = true → ¬EmptyOnBare event rule) ∧
    (FiresExactly ownFields rules event ↔
      ∀ rule ∈ rules.entries, watches rule event = true → ¬EmptyOnBare event rule ∧ ¬NamesVariant event rule) := by
  rw [firesExactly_iff,firesExactly_iff]
  exact ⟨forall_congr' (fun rule => forall_congr' (fun _ => serialised_iff event rule)),
    forall_congr' (fun rule => forall_congr' (fun _ => own_iff event rule))⟩

def onShutdown : Rules := ⟨[⟨"on-shutdown","shutdown",some (.object []),none⟩],by decide⟩

/-- A rule for the shutdown with an empty filter does not fire. -/
theorem rules_miss : ¬FiresExactly serialisedFields onShutdown (.written .shutdown (.inl rfl)) ∧
    ¬FiresExactly ownFields onShutdown (.written .shutdown (.inl rfl)) := by
  constructor
  · intro exact
    have same := congrArg List.length (exact (fun _ => ⟨"",""⟩))
    exact absurd same (by decide)
  · intro exact
    have same := congrArg List.length (exact (fun _ => ⟨"",""⟩))
    exact absurd same (by decide)

end ClawKernel.Runtime.RuleMatching
