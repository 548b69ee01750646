import ClawKernel.Script.Events
import Mathlib.Algebra.BigOperators.Group.List.Basic
import Mathlib.Algebra.GroupWithZero.Nat

/-! How often the callbacks of a script are called: for every event a poll takes, the calls
made and the turns that the polls under way still have for it add up to the lists it goes to.
-/
namespace ClawKernel.Script.Events
open Lib.Runs
open Lib.Broadcast (Channel recv send)
open Server.EventTrigger (Event)

section Bridge
variable {φ : Type} (slots : Nat)

/-- The turns a call has still to come in the polls under way. -/
def Task.turns (call : Call) : Task → Nat
  | .receive => 0
  | .event delivery taken => if delivery = call.delivery then (matchKeys taken).count call.key else 0
  | .key delivery list => if delivery = call.delivery ∧ list = call.key then 1 else 0
  | .entry other => if other = call then 1 else 0

def turnsOf (call : Call) (todo : List Task) : Nat := (todo.map (Task.turns call)).sum

def owed (call : Call) (stack : List Frame) : Nat := (stack.map (fun frame => turnsOf call frame.todo)).sum

def Task.Concerns (key : String) : Task → Prop
  | .receive => False
  | .event _ taken => key ∈ matchKeys taken
  | .key _ other => other = key
  | .entry call => call.key = key

/-- A one-shot callback has been called and has not returned. -/
def State.Runs (s : State φ) (key : String) (index : Nat) : Prop :=
  ∃ frame ∈ s.stack, ∃ call, frame.running = some (call,true) ∧ call.key = key ∧ call.index = index

@[simp] theorem turnsOf_nil (call : Call) : turnsOf call [] = 0 := rfl

@[simp] theorem turnsOf_cons (call : Call) (task : Task) (rest : List Task) :
    turnsOf call (task :: rest) = task.turns call + turnsOf call rest := by
  simp [turnsOf]

@[simp] theorem turnsOf_append (call : Call) (first second : List Task) :
    turnsOf call (first ++ second) = turnsOf call first + turnsOf call second := by
  simp [turnsOf]

@[simp] theorem owed_cons (call : Call) (frame : Frame) (below : List Frame) :
    owed call (frame :: below) = turnsOf call frame.todo + owed call below := by
  simp [owed]

theorem turns_of_ne (call : Call) (task : Task) (other : task.delivery ≠ some call.delivery) : task.turns call = 0 := by
  cases task with
  | receive => simp [Task.turns]
  | event delivery event =>
    have ne : delivery ≠ call.delivery := fun same => other (congrArg some same)
    simp [Task.turns,ne]
  | key delivery key =>
    have ne : delivery ≠ call.delivery := fun same => other (congrArg some same)
    simp [Task.turns,ne]
  | entry entered =>
    have ne : entered ≠ call := fun same => other (congrArg (fun c : Call => some c.delivery) same)
    simp [Task.turns,ne]

theorem turnsOf_zero (call : Call) (todo : List Task) (none : ∀ task ∈ todo, task.delivery ≠ some call.delivery) :
    turnsOf call todo = 0 :=
  List.sum_eq_zero (fun turns member => by
    obtain ⟨task,within,rfl⟩ := List.mem_map.mp member
    exact turns_of_ne call task (none task within))

theorem owed_zero (stack : List Frame) (call : Call)
    (none : ∀ frame ∈ stack, ∀ task ∈ frame.todo, task.delivery ≠ some call.delivery) : owed call stack = 0 :=
  List.sum_eq_zero (fun turns member => by
    obtain ⟨frame,within,rfl⟩ := List.mem_map.mp member
    exact turnsOf_zero call frame.todo (none frame within))

theorem turnsOf_keys (call : Call) (delivery : Nat) (event : Event) :
    turnsOf call ((matchKeys event).map (.key delivery)) = (Task.event delivery event).turns call := by
  by_cases same : delivery = call.delivery
  · simp [Task.turns,matchKeys,same,List.count_cons,Nat.add_comm]
  · simp [Task.turns,matchKeys,same]

theorem turnsOf_range (call : Call) (delivery : Nat) (key : String) (length : Nat) :
    turnsOf call ((List.range length).map (fun i => .entry ⟨delivery,key,i⟩)) =
      if call.index < length then (Task.key delivery key).turns call else 0 := by
  induction length with
  | zero => simp
  | succ length ih =>
    have last : (Task.entry ⟨delivery,key,length⟩).turns call =
        if call.index = length then (Task.key delivery key).turns call else 0 := by
      obtain ⟨other,name,index⟩ := call
      simp only [Task.turns,Call.mk.injEq]
      grind
    rw [List.range_succ,List.map_append,turnsOf_append,ih,List.map_singleton,turnsOf_cons,turnsOf_nil,last]
    grind

theorem count_matchKeys (event : Event) (key : String) (matching : key ∈ matchKeys event)
    (apart : (eventToParts event).1 = wildcard → key ≠ wildcard) : (matchKeys event).count key = 1 := by
  have either : key = (eventToParts event).1 ∨ key = wildcard := by simpa [matchKeys] using matching
  unfold matchKeys
  rcases either with same | same
  · have ne : wildcard ≠ key := fun clash => apart (same ▸ clash.symm) clash.symm
    simp [List.count_cons,same] at ne ⊢
    exact ne
  · have ne : (eventToParts event).1 ≠ key := fun clash => apart (clash.trans same) same
    simp [List.count_cons,same] at ne ⊢
    exact ne

/-- The poll above comes to no list a one-shot callback of the poll below is in while it runs. -/
def Apart (upper lower : Frame) : Prop :=
  ∀ call, lower.running = some (call,true) → ∀ task ∈ upper.todo, ¬task.Concerns call.key

/-- The call is due for the event: it was registered before the poll, and it is lasting or
has never been made. -/
structure State.Due (s : State φ) (call : Call) (p : Polled) : Prop where
  polled : s.polled[call.delivery]? = some p
  registered : call.index < p.registered call.key
  unspent : onceAt s.callbacks call.key call.index = some false ∨ s.total call.key call.index = 0

/-- The calls made and the turns to come add up to the lists the event is handed to. -/
structure Counted (s : State φ) : Prop where
  apart : s.stack.Pairwise Apart
  due : ∀ call p, s.Due call p → s.calls.count call + owed call s.stack = (matchKeys p.event).count call.key
  fresh : ∀ key index callback, (s.callbacks key)[index]? = some ⟨some callback,true⟩ → ¬s.Runs key index →
    s.total key index = 0
  spent : ∀ key index, (s.callbacks key)[index]? = some ⟨none,true⟩ ∨ s.Runs key index → s.total key index = 1
  wild : ∀ p ∈ s.polled, (eventToParts p.event).1 = wildcard → ∀ index < p.registered wildcard,
    onceAt s.callbacks wildcard index = some true

theorem counted_bus (s : State φ) (channel : Channel Event) (next : Nat) (counted : Counted s) :
    Counted {s with channel := channel, next := next} :=
  ⟨counted.apart,fun call p due => counted.due call p ⟨due.polled,due.registered,due.unspent⟩,counted.fresh,
    counted.spent,counted.wild⟩

theorem runs_cons (s : State φ) (frame : Frame) (below : List Frame) (stack : s.stack = frame :: below) (key : String)
    (index : Nat) : s.Runs key index ↔
      (∃ call, frame.running = some (call,true) ∧ call.key = key ∧ call.index = index) ∨
        ∃ other ∈ below, ∃ call, other.running = some (call,true) ∧ call.key = key ∧ call.index = index := by
  unfold State.Runs
  rw [stack]
  exact List.exists_mem_cons_iff ..

theorem runs_goOn (s : State φ) (frame : Frame) (below : List Frame) (todo : List Task) (stack : s.stack = frame :: below)
    (key : String) (index : Nat) : (s.goOn frame below todo).Runs key index ↔ s.Runs key index := by
  rw [runs_cons s frame below stack,runs_cons (s.goOn frame below todo) _ below rfl]

theorem counted_goOn (s : State φ) (frame : Frame) (below : List Frame) (todo : List Task) (counted : Counted s)
    (stack : s.stack = frame :: below)
    (concerned : ∀ task ∈ todo, ∀ key, task.Concerns key → ∃ other ∈ frame.todo, other.Concerns key)
    (turns : ∀ call p, s.Due call p → turnsOf call todo = turnsOf call frame.todo) :
    Counted (s.goOn frame below todo) where
  apart := by
    have apart := counted.apart
    rw [stack] at apart
    obtain ⟨top,rest⟩ := List.pairwise_cons.mp apart
    refine List.pairwise_cons.mpr ⟨fun lower within call runs task member concerns => ?_,rest⟩
    obtain ⟨other,there,concerned⟩ := concerned task member call.key concerns
    exact top lower within call runs other there concerned
  due call p due := by
    have same : s.Due call p := ⟨due.polled,due.registered,due.unspent⟩
    have before := counted.due call p same
    rw [stack,owed_cons] at before
    change s.calls.count call + (turnsOf call todo + owed call below) = _
    rw [turns call p same]
    exact before
  fresh key index callback found idle :=
    counted.fresh key index callback found (fun runs => idle ((runs_goOn s frame below todo stack key index).mpr runs))
  spent key index either :=
    counted.spent key index (either.imp_right (runs_goOn s frame below todo stack key index).mp)
  wild := counted.wild

theorem total_new (s : State φ) (sound : Sound s) (key : String) (index : Nat)
    (fresh : (s.callbacks key).length ≤ index) : s.total key index = 0 := by
  refine List.countP_eq_zero.mpr (fun call member => ?_)
  have within := (sound.calls call member).2
  simp only [decide_eq_true_eq]
  rintro ⟨rfl,rfl⟩
  exact Nat.not_lt.mpr fresh within

theorem counted_push (s : State φ) (eventType : String) (callback : φ) (once : Bool) (sound : Sound s)
    (counted : Counted s) : Counted {s with callbacks := push s.callbacks eventType ⟨some callback,once⟩} where
  apart := counted.apart
  due call p due := by
    refine counted.due call p ⟨due.polled,due.registered,due.unspent.imp_left (fun lasting => ?_)⟩
    have member := List.mem_of_getElem? due.polled
    have within := due.registered.trans_le (sound.polled p member call.key)
    rw [onceAt,getElem?_push,if_neg (fun same => Nat.ne_of_lt within same.2)] at lasting
    exact lasting
  fresh key index other found idle := by
    rw [getElem?_push] at found
    split at found
    · rename_i last
      exact total_new s sound key index last.2.ge
    · exact counted.fresh key index other found idle
  spent key index either := by
    refine counted.spent key index (either.imp_left (fun found => ?_))
    rw [getElem?_push] at found
    split at found
    · cases found
    · exact found
  wild p member same index within := onceAt_push _ _ _ _ _ _ (counted.wild p member same index within)

theorem counted_spend (s : State φ) (call : Call) (counted : Counted s)
    (runs : s.Runs call.key call.index) : Counted {s with callbacks := spend s.callbacks call} where
  apart := counted.apart
  due other p due := by
    refine counted.due other p ⟨due.polled,due.registered,due.unspent.imp_left (fun lasting => ?_)⟩
    rwa [onceAt_spend] at lasting
  fresh key index callback found idle := by
    rw [getElem?_spend] at found
    obtain ⟨entry,there,same⟩ := Option.map_eq_some_iff.mp found
    split at same
    · cases same
    · exact counted.fresh key index callback (same ▸ there) idle
  spent key index either := by
    rcases either with found | runs
    · rw [getElem?_spend] at found
      obtain ⟨entry,there,same⟩ := Option.map_eq_some_iff.mp found
      split at same
      · rename_i at_
        rw [at_.1,at_.2]
        exact counted.spent call.key call.index (Or.inr runs)
      · exact counted.spent key index (Or.inl (same ▸ there))
    · exact counted.spent key index (Or.inr runs)
  wild p member same index within := (onceAt_spend ..).trans (counted.wild p member same index within)

/-- The callback on top has returned, and is spent if it was a one-shot one. -/
theorem counted_resume (s : State φ) (frame : Frame) (below : List Frame) (call : Call) (once : Bool)
    (counted : Counted s) (stack : s.stack = frame :: below) (running : frame.running = some (call,once))
    (spent : once = true → ∀ callback, (s.callbacks call.key)[call.index]? ≠ some ⟨some callback,true⟩) :
    Counted {s with stack := {frame with running := none} :: below} where
  apart := by
    have apart := counted.apart
    rw [stack] at apart
    obtain ⟨top,others⟩ := List.pairwise_cons.mp apart
    exact List.pairwise_cons.mpr ⟨fun lower within => top lower within,others⟩
  due other p due := by
    have before := counted.due other p ⟨due.polled,due.registered,due.unspent⟩
    rw [stack,owed_cons] at before
    simpa using before
  fresh key index callback found idle := by
    refine counted.fresh key index callback found (fun runs => ?_)
    rcases (runs_cons s frame below stack key index).mp runs with ⟨other,same,rfl,rfl⟩ | later
    · rw [running] at same
      cases same
      exact spent rfl callback found
    · exact idle ((runs_cons _ _ below rfl key index).mpr (Or.inr later))
  spent key index either := by
    refine counted.spent key index (either.imp_right (fun runs => ?_))
    rcases (runs_cons _ _ below rfl key index).mp runs with ⟨_,same,_⟩ | later
    · cases same
    · exact (runs_cons s frame below stack key index).mpr (Or.inr later)
  wild := counted.wild

theorem counted_pop (s : State φ) (frame : Frame) (below : List Frame) (counted : Counted s)
    (stack : s.stack = frame :: below) (idle : frame.running = none) (empty : frame.todo = []) :
    Counted {s with stack := below} := by
  have same : ∀ key index, State.Runs {s with stack := below} key index ↔ s.Runs key index := by
    intro key index
    rw [runs_cons s frame below stack,idle]
    simp [State.Runs]
  have apart := counted.apart
  rw [stack] at apart
  refine ⟨(List.pairwise_cons.mp apart).2,fun call p due => ?_,fun key index callback found none => ?_,
    fun key index either => ?_,counted.wild⟩
  · have before := counted.due call p ⟨due.polled,due.registered,due.unspent⟩
    rw [stack,owed_cons,empty,turnsOf_nil,Nat.zero_add] at before
    exact before
  · exact counted.fresh key index callback found (fun runs => none ((same key index).mpr runs))
  · exact counted.spent key index (either.imp_right (same key index).mp)

theorem counted_poll (s : State φ) (counted : Counted s) : Counted (poll s) := by
  unfold poll
  split
  · have same : ∀ key index, State.Runs {s with stack :=
        ⟨fun key => (s.callbacks key).length,[.receive],none⟩ :: s.stack} key index ↔ s.Runs key index := by
      intro key index
      rw [runs_cons _ _ s.stack rfl]
      simp [State.Runs]
    refine ⟨List.pairwise_cons.mpr ⟨fun lower within call runs task member concerns => ?_,counted.apart⟩,
      fun call p due => ?_,fun key index callback found none => ?_,fun key index either => ?_,counted.wild⟩
    · rw [List.mem_singleton.mp member] at concerns
      exact concerns
    · have before := counted.due call p ⟨due.polled,due.registered,due.unspent⟩
      simpa [Task.turns] using before
    · exact counted.fresh key index callback found (fun runs => none ((same key index).mpr runs))
    · exact counted.spent key index (either.imp_right (same key index).mp)
  · exact counted

/-- What a poll does with an event it takes. -/
def State.take (s : State φ) (frame : Frame) (below : List Frame) (rest : List Task) (event : Event) : State φ :=
  {s with
    polled := s.polled ++ [⟨event,frame.registered⟩]
    stack := {frame with todo := .receive :: rest ++ [.event s.polled.length event]} :: below}

theorem counted_take (s : State φ) (frame : Frame) (below : List Frame) (rest : List Task) (event : Event)
    (sound : Sound s) (counted : Counted s) (stack : s.stack = frame :: below) (todo : frame.todo = .receive :: rest)
    (apart : ∀ other ∈ below, ∀ call, other.running = some (call,true) → call.key ∉ matchKeys event)
    (wild : (eventToParts event).1 = wildcard → ∀ index < frame.registered wildcard, ∀ entry,
      (s.callbacks wildcard)[index]? = some entry → entry.once = true) :
    Counted (s.take frame below rest event) where
  apart := by
    have before := counted.apart
    rw [stack] at before
    obtain ⟨top,others⟩ := List.pairwise_cons.mp before
    refine List.pairwise_cons.mpr ⟨fun lower within call runs task member concerns => ?_,others⟩
    rcases List.mem_append.mp member with earlier | last
    · exact top lower within call runs task (todo ▸ earlier) concerns
    · rw [List.mem_singleton.mp last] at concerns
      exact apart lower within call runs concerns
  due call p due := by
    have turns : owed call (s.take frame below rest event).stack =
        owed call s.stack + (Task.event s.polled.length event).turns call := by
      rw [stack,owed_cons,todo]
      simp [State.take]
      omega
    rw [turns]
    have found := due.polled
    simp only [State.take,List.getElem?_append] at found
    split at found
    · rename_i earlier
      have before := counted.due call p ⟨found,due.registered,due.unspent⟩
      have other : (Task.event s.polled.length event).turns call = 0 :=
        turns_of_ne call _ (fun same => Nat.ne_of_gt earlier (Option.some_inj.mp same))
      change s.calls.count call + _ = _
      omega
    · rename_i later
      rw [List.getElem?_singleton] at found
      split at found
      · rename_i first
        cases found
        have last : call.delivery = s.polled.length := by omega
        have uncalled : s.calls.count call = 0 :=
          List.count_eq_zero.mpr (fun member => later (sound.calls call member).1)
        have owes : owed call s.stack = 0 := owed_zero s.stack call (fun other within task member same =>
          later (sound.tasks other within task member call.delivery same))
        change s.calls.count call + _ = _
        rw [uncalled,owes]
        simp [Task.turns,last]
      · cases found
  fresh key index callback found idle :=
    counted.fresh key index callback found (fun runs => idle (by
      rw [runs_cons s frame below stack] at runs
      exact (runs_cons (s.take frame below rest event) _ below rfl key index).mpr runs))
  spent key index either := by
    refine counted.spent key index (either.imp_right (fun runs => ?_))
    rw [runs_cons s frame below stack]
    exact (runs_cons (s.take frame below rest event) _ below rfl key index).mp runs
  wild p member same index within := by
    rcases List.mem_append.mp member with earlier | last
    · exact counted.wild p earlier same index within
    · rw [List.mem_singleton.mp last] at same within
      have fits := sound.frames frame (stack ▸ List.mem_cons_self) wildcard
      have there := List.getElem?_eq_getElem (within.trans_le fits)
      change onceAt s.callbacks wildcard index = some true
      rw [onceAt,there]
      exact congrArg some (wild same index within _ there)

theorem total_snoc (s : State φ) (call : Call) (stack : List Frame) (key : String) (index : Nat) :
    State.total {s with calls := s.calls ++ [call], stack := stack} key index =
      s.total key index + if call.key = key ∧ call.index = index then 1 else 0 := by
  simp [State.total,List.countP_append,List.countP_cons]

/-- A call that a poll comes to is of no callback that runs below it. -/
theorem entered_idle (s : State φ) (frame : Frame) (below : List Frame) (call : Call) (rest : List Task)
    (counted : Counted s) (stack : s.stack = frame :: below) (idle : frame.running = none)
    (todo : frame.todo = .entry call :: rest) : ¬s.Runs call.key call.index := by
  intro runs
  have apart := counted.apart
  rw [stack] at apart
  rcases (runs_cons s frame below stack _ _).mp runs with ⟨_,same,_⟩ | ⟨lower,within,other,same,key,_⟩
  · rw [idle] at same
    cases same
  · exact (List.pairwise_cons.mp apart).1 lower within other same (.entry call) (todo ▸ List.mem_cons_self) key.symm

theorem counted_call (s : State φ) (frame : Frame) (below : List Frame) (call : Call) (rest : List Task) (callback : φ)
    (once : Bool) (counted : Counted s) (stack : s.stack = frame :: below) (idle : frame.running = none)
    (todo : frame.todo = .entry call :: rest)
    (found : (s.callbacks call.key)[call.index]? = some ⟨some callback,once⟩) :
    Counted {s with
      calls := s.calls ++ [call], stack := {frame with todo := rest, running := some (call,once)} :: below} where
  apart := by
    have apart := counted.apart
    rw [stack] at apart
    obtain ⟨top,others⟩ := List.pairwise_cons.mp apart
    exact List.pairwise_cons.mpr ⟨fun lower within other runs task member =>
      top lower within other runs task (todo ▸ List.mem_cons_of_mem _ member),others⟩
  due other p due := by
    have unspent := due.unspent
    rw [total_snoc] at unspent
    have before := counted.due other p ⟨due.polled,due.registered,unspent.imp_right (fun zero => by omega)⟩
    rw [stack,owed_cons,todo,turnsOf_cons] at before
    simp only [Task.turns] at before
    simp only [List.count_append,List.count_singleton,owed_cons,beq_iff_eq]
    omega
  fresh key index other entry none := by
    have away : ¬(call.key = key ∧ call.index = index) := by
      rintro ⟨rfl,rfl⟩
      rw [found] at entry
      cases entry
      exact none ((runs_cons _ _ below rfl _ _).mpr (Or.inl ⟨call,rfl,rfl,rfl⟩))
    rw [total_snoc,if_neg away]
    refine counted.fresh key index other entry (fun runs => ?_)
    rcases (runs_cons s frame below stack key index).mp runs with ⟨_,same,_⟩ | later
    · rw [idle] at same
      cases same
    · exact none ((runs_cons _ _ below rfl key index).mpr (Or.inr later))
  spent key index either := by
    have silent := entered_idle s frame below call rest counted stack idle todo
    rw [total_snoc]
    rcases either with entry | runs
    · have away : ¬(call.key = key ∧ call.index = index) := by
        rintro ⟨rfl,rfl⟩
        rw [found] at entry
        cases entry
      rw [if_neg away]
      exact counted.spent key index (Or.inl entry)
    · rcases (runs_cons _ _ below rfl key index).mp runs with ⟨other,same,rfl,rfl⟩ | later
      · cases same
        rw [if_pos ⟨rfl,rfl⟩,counted.fresh _ _ callback found silent]
      · have running : s.Runs key index := (runs_cons s frame below stack key index).mpr (Or.inr later)
        have away : ¬(call.key = key ∧ call.index = index) := by
          rintro ⟨rfl,rfl⟩
          exact silent running
        rw [if_neg away]
        exact counted.spent key index (Or.inr running)
  wild := counted.wild

/-- A call whose turn passes is not due: its callback is gone. -/
theorem counted_skip (s : State φ) (frame : Frame) (below : List Frame) (call : Call) (rest : List Task)
    (sound : Sound s) (counted : Counted s) (stack : s.stack = frame :: below) (todo : frame.todo = .entry call :: rest)
    (gone : ∀ callback once, (s.callbacks call.key)[call.index]? ≠ some ⟨some callback,once⟩) :
    Counted (s.goOn frame below rest) := by
  refine counted_goOn s frame below rest counted stack
    (fun task member key concerns => ⟨task,todo ▸ List.mem_cons_of_mem _ member,concerns⟩) (fun other p due => ?_)
  rw [todo,turnsOf_cons]
  have away : call ≠ other := by
    rintro rfl
    have within := due.registered.trans_le (sound.polled p (List.mem_of_getElem? due.polled) call.key)
    have there := List.getElem?_eq_getElem within
    cases entry : (s.callbacks call.key)[call.index] with
    | mk fn once =>
      rw [entry] at there
      cases fn with
      | some callback => exact gone callback once there
      | none =>
        have spent : once = true := by
          by_contra lasting
          have alive := sound.alive call.key _ (List.mem_of_getElem? there) (Bool.eq_false_iff.mpr lasting)
          cases alive
        subst spent
        rcases due.unspent with lasting | never
        · rw [onceAt,there] at lasting
          cases lasting
        · rw [counted.spent call.key call.index (Or.inl there)] at never
          cases never
  simp [Task.turns,away]

theorem counted_work (s : State φ) (frame : Frame) (below : List Frame) (task : Task) (rest : List Task)
    (sound : Sound s) (counted : Counted s) (single : Single slots s .turn) (stack : s.stack = frame :: below)
    (idle : frame.running = none) (todo : frame.todo = task :: rest) : Counted (work slots s frame below rest task) := by
  have keeps : ∀ task ∈ rest, ∀ key, task.Concerns key → ∃ other ∈ frame.todo, other.Concerns key :=
    fun task member key concerns => ⟨task,todo ▸ List.mem_cons_of_mem _ member,concerns⟩
  unfold work
  cases task with
  | receive =>
    have silent : ∀ call : Call, turnsOf call rest = turnsOf call frame.todo := by
      intro call
      rw [todo,turnsOf_cons]
      simp [Task.turns]
    cases received : recv slots s.channel s.next with
    | none => exact counted_goOn s frame below rest counted stack keeps (fun call _ _ => silent call)
    | some got =>
      obtain ⟨what,next⟩ := got
      have moved := counted_bus s s.channel next counted
      cases what with
      | event event =>
        have arrives : s.arriving slots = some (event,frame,below) := by
          unfold State.arriving
          simp only [stack,idle,todo,received]
        obtain ⟨apart,wild⟩ := single event frame below arrives
        exact counted_take {s with next := next} frame below rest event (sound_bus s s.channel next sound) moved stack todo
          apart wild
      | lagged missed =>
        exact counted_goOn {s with next := next} frame below rest moved stack keeps (fun call _ _ => silent call)
      | closed =>
        exact counted_goOn {s with next := next} frame below rest moved stack keeps (fun call _ _ => silent call)
  | event delivery event =>
    refine counted_goOn s frame below _ counted stack (fun task member key concerns => ?_) (fun call _ _ => ?_)
    · rcases List.mem_append.mp member with listed | later
      · obtain ⟨name,matching,rfl⟩ := List.mem_map.mp listed
        refine ⟨.event delivery event,todo ▸ List.mem_cons_self,?_⟩
        cases concerns
        exact matching
      · exact keeps task later key concerns
    · rw [todo,turnsOf_append,turnsOf_cons,turnsOf_keys]
  | key delivery name =>
    refine counted_goOn s frame below _ counted stack (fun task member key concerns => ?_) (fun call p due => ?_)
    · rcases List.mem_append.mp member with listed | later
      · obtain ⟨index,_,rfl⟩ := List.mem_map.mp listed
        exact ⟨.key delivery name,todo ▸ List.mem_cons_self,concerns⟩
      · exact keeps task later key concerns
    · rw [todo,turnsOf_append,turnsOf_cons,turnsOf_range]
      have within := due.registered.trans_le (sound.polled p (List.mem_of_getElem? due.polled) call.key)
      by_cases same : delivery = call.delivery ∧ name = call.key
      · rw [same.2,if_pos within]
      · simp [Task.turns,same]
  | entry call =>
    simp only
    split
    · rename_i callback once found
      exact counted_call s frame below call rest callback once counted stack idle todo found
    · rename_i gone
      exact counted_skip s frame below call rest sound counted stack todo gone

theorem counted_step (s : State φ) (act : Act φ) (sound : Sound s) (counted : Counted s) (single : Single slots s act) :
    Counted (step slots s act) := by
  cases act with
  | publish event => exact counted_bus s _ s.next counted
  | on eventType callback =>
    change Counted (s.register eventType callback false)
    unfold State.register
    split
    · exact counted_push s eventType callback false sound counted
    · exact counted
  | once eventType callback =>
    change Counted (s.register eventType callback true)
    unfold State.register
    split
    · exact counted_push s eventType callback true sound counted
    · exact counted
  | emit eventType data =>
    change Counted (emit s eventType data)
    unfold emit
    split
    · exact counted_bus s _ s.next counted
    · exact counted
  | poll => exact counted_poll s counted
  | ret =>
    change Counted (ret s)
    unfold ret
    split
    · exact counted
    · rename_i frame below stack
      split
      · exact counted
      · rename_i call once runs
        cases once with
        | false => exact counted_resume s frame below call false counted stack runs (fun clash => by cases clash)
        | true =>
          have running : s.Runs call.key call.index := ⟨frame,stack ▸ List.mem_cons_self,call,runs,rfl,rfl⟩
          refine counted_resume _ frame below call true (counted_spend s call counted running) stack runs ?_
          intro _ callback found
          rw [getElem?_spend] at found
          obtain ⟨entry,_,same⟩ := Option.map_eq_some_iff.mp found
          rw [if_pos ⟨rfl,rfl⟩] at same
          cases same
  | turn =>
    change Counted (turn slots s)
    unfold turn
    split
    · exact counted
    · rename_i frame below stack
      split
      · exact counted
      · exact counted_pop s frame below counted stack ‹_› ‹_›
      · exact counted_work slots s frame below _ _ sound counted single stack ‹_› ‹_›

theorem count_le_total (s : State φ) (call : Call) : s.calls.count call ≤ s.total call.key call.index :=
  List.countP_mono_left (fun other _ same => by
    rw [beq_iff_eq.mp same]
    simp)

theorem exactlyOnce_of_counted (s : State φ) (counted : Counted s) : ExactlyOnce s where
  once key index entry found mark := by
    obtain ⟨fn,once⟩ := entry
    cases mark
    by_cases runs : s.Runs key index
    · exact (counted.spent key index (Or.inr runs)).le
    · cases fn with
      | none => exact (counted.spent key index (Or.inl found)).le
      | some callback => exact (counted.fresh key index callback found runs).trans_le (Nat.zero_le 1)
  lasting delivery p polled key matching index within entry found mark := by
    have lasting : onceAt s.callbacks key index = some false := by
      rw [onceAt,found]
      exact congrArg some mark
    have apart : (eventToParts p.event).1 = wildcard → key ≠ wildcard := by
      rintro same rfl
      rw [counted.wild p (List.mem_of_getElem? polled) same index within] at lasting
      cases lasting
    have sum := counted.due ⟨delivery,key,index⟩ p ⟨polled,within,Or.inl lasting⟩
    rw [count_matchKeys p.event key matching apart] at sum
    refine ⟨by omega,fun gone => ?_⟩
    have owes : owed ⟨delivery,key,index⟩ s.stack = 0 :=
      owed_zero s.stack _ (fun frame member task todo same => gone ⟨frame,member,task,todo,same⟩)
    omega
  live delivery p polled key matching index within entry found mark gone := by
    have owes : owed ⟨delivery,key,index⟩ s.stack = 0 :=
      owed_zero s.stack _ (fun frame member task todo same => gone ⟨frame,member,task,todo,same⟩)
    have called : s.total key index ≠ 0 := by
      intro never
      have sum := counted.due ⟨delivery,key,index⟩ p ⟨polled,within,Or.inr never⟩
      have listed : 0 < (matchKeys p.event).count key := List.count_pos_iff.mpr matching
      have few := (count_le_total s ⟨delivery,key,index⟩).trans_eq never
      have none := Nat.le_zero.mp few
      rw [owes,none] at sum
      exact listed.ne sum
    obtain ⟨fn,once⟩ := entry
    cases mark
    by_cases runs : s.Runs key index
    · exact counted.spent key index (Or.inr runs)
    · cases fn with
      | none => exact counted.spent key index (Or.inl found)
      | some callback => exact absurd (counted.fresh key index callback found runs) called

theorem counted_new (channel : Channel Event) : Counted (new channel : State φ) where
  apart := List.Pairwise.nil
  due call p due := by cases due.polled
  fresh _ _ _ _ _ := rfl
  spent key index either := by
    rcases either with found | ⟨_,member,_⟩
    · cases found
    · cases member
  wild _ member := by cases member

/-- Callbacks run once for each event in every run that keeps to the condition. -/
theorem exactly_once_along (channel : Channel Event) (acts : List (Act φ))
    (single : Along (step slots) (Single slots) (new channel) acts) :
    Always (step slots) ExactlyOnce (new channel) acts := by
  have both := always_of_along (step slots) (Single slots) (fun s => Sound s ∧ Counted s)
    (fun s act kept single => ⟨sound_step slots s act kept.1,counted_step slots s act kept.1 kept.2 single⟩)
    (new channel) acts ⟨sound_new channel,counted_new channel⟩ single
  exact always_mono (step slots) _ _ (fun s kept => exactlyOnce_of_counted s kept.2) (new channel) acts both

theorem single_silent (s : State φ) (silent : (s.arriving slots).isNone = true) : Single slots s .turn := by
  intro event frame below arrives
  rw [arrives] at silent
  cases silent

end Bridge

/-- A one-shot callback hears of one event, returns and is spent. -/
theorem exactly_once_greeting :
    Always (step 1024) ExactlyOnce (new ⟨[],false⟩)
      ([.once "greeting" 0,.emit "greeting" none,.poll,.turn,.turn,.turn,.turn,.turn,.ret,.turn,.turn]
        : List (Act Nat)) := by
  refine exactly_once_along 1024 ⟨[],false⟩ _ ⟨trivial,trivial,trivial,?_,single_silent _ _ rfl,single_silent _ _ rfl,
    single_silent _ _ rfl,single_silent _ _ rfl,trivial,single_silent _ _ rfl,single_silent _ _ rfl,trivial⟩
  intro event frame below arrives
  cases arrives
  exact ⟨fun _ member => (by cases member),fun clash => absurd clash (by decide)⟩

/-- An event whose type is the wildcard calls a callback for all events twice, and a
one-shot callback that polls within is called again. -/
theorem called_twice :
    ¬Always (step 1024) ExactlyOnce (new ⟨[],false⟩)
      ([.on "*" 0,.emit "*" none,.poll,.turn,.turn,.turn,.turn,.turn,.ret,.turn,.turn] : List (Act Nat)) ∧
    ¬Always (step 1024) ExactlyOnce (new ⟨[],false⟩)
      ([.once "tick" 0,.emit "tick" none,.poll,.turn,.turn,.turn,.turn,.turn,.emit "tick" none,.poll,
        .turn,.turn,.turn,.turn,.turn] : List (Act Nat)) := by
  constructor
  · intro always
    have few := ((always_end _ _ _ _ always).lasting 0 _ rfl "*" (by decide) 0 (by decide) ⟨some 0,false⟩ rfl rfl).1
    revert few
    decide
  · intro always
    have few := (always_end _ _ _ _ always).once "tick" 0 ⟨some 0,true⟩ rfl rfl
    revert few
    decide

end ClawKernel.Script.Events
