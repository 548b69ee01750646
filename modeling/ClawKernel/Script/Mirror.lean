import ClawKernel.Script.HotReload
import Mathlib.Tactic.Tauto

/-! When the scripts that are registered mirror the files that were validated: what a path has
registered is its last text, or the path is still on its way to be handled.
-/
namespace ClawKernel.Script.HotReload
open Lib.Runs Lib.Tables Modules

section Manager
variable (engineV8 : Bool) (validate : Script → Bool) (config : HotReloadConfig)

/-- The path will be handled from the beginning, or read while its file exists. -/
def State.Due (s : State) (path : String) : Prop :=
  path ∈ s.way ∨ s.loading = some path ∧ (s.files path).isSome = true

/-- The path has a script of a file that has gone, or a text to be loaded. -/
inductive State.Owed (s : State) (path : String) : Prop where
  | stale (name : String) (entry : ScriptEntry) (found : get s.registry name = some entry) (own : entry.path = path)
      (gone : s.validated path = none)
  | unread (content : String) (written : s.written path = some content)
      (passes : Passes engineV8 validate config path content) (missed : s.validated path ≠ some content)

/-- What validated texts there are is registered, what is registered is the text validated last
or stems from a file that has gone, and a path that is owed something is still to be handled. -/
structure Inv (s : State) : Prop where
  known : Known s.registry
  named : Named s.registry
  stems : ∀ name entry, get s.registry name = some entry → fileStem entry.path = some name
  watched : ∀ name entry, get s.registry name = some entry → isWatchedExtension config entry.path = true
  present : ∀ path source, s.validated path = some source → (s.files path).isSome = true
  written : ∀ path content, s.written path = some content → s.files path = some (some content)
  kept : ∀ path source, s.validated path = some source →
    ∃ name entry, get s.registry name = some entry ∧ entry.path = path ∧ entry.source = source
  fresh : ∀ name entry, get s.registry name = some entry →
    s.validated entry.path = some entry.source ∨ s.validated entry.path = none
  due : ∀ path, s.Owed engineV8 validate config path → s.Due path

theorem checkedEntry_spec (path content : String) (now : Nat) (entry : ScriptEntry)
    (checked : checkedEntry engineV8 validate config path content now = some entry) :
    isWatchedExtension config path = true ∧ fileStem path = some entry.name ∧ entry.path = path ∧
      entry.source = content := by
  unfold checkedEntry at checked
  split at checked
  · rename_i watched
    refine ⟨watched,?_⟩
    split at checked
    · cases checked
    · split at checked
      · cases checked
      · split at checked
        · cases checked
        · rename_i name stem
          simp only at checked
          split at checked
          · cases checked
          · cases checked
            exact ⟨stem,rfl,rfl⟩
  · cases checked

/-- The time of the check does not matter. -/
theorem checkedEntry_none (path content : String) (now later : Nat)
    (failed : checkedEntry engineV8 validate config path content now = none) :
    checkedEntry engineV8 validate config path content later = none := by
  unfold checkedEntry at failed ⊢
  split
  · rename_i watched
    rw [if_pos watched] at failed
    split
    · rfl
    · rename_i engine known
      rw [known] at failed
      simp only at failed
      split
      · rfl
      · rename_i accepted
        rw [if_neg accepted] at failed
        split
        · rfl
        · rename_i name stem
          rw [stem] at failed
          simp only [ite_eq_left_iff,reduceCtorEq,imp_false,not_not] at failed
          exact if_pos failed
  · rfl

theorem owed_watched (s : State) (path : String) (inv : Inv engineV8 validate config s)
    (owed : s.Owed engineV8 validate config path) : isWatchedExtension config path = true := by
  cases owed with
  | stale name entry found own _ => exact own ▸ inv.watched name entry found
  | unread content _ passes _ =>
    obtain ⟨now,passed⟩ := passes
    obtain ⟨entry,checked⟩ := Option.ne_none_iff_exists'.mp passed
    exact (checkedEntry_spec engineV8 validate config path content now entry checked).1

/-- A step in which paths move towards their handling. -/
theorem inv_passed (s after : State) (inv : Inv engineV8 validate config s) (registry : after.registry = s.registry)
    (validated : after.validated = s.validated) (files : after.files = s.files) (written : after.written = s.written)
    (due : ∀ path, s.Owed engineV8 validate config path → s.Due path → after.Due path) :
    Inv engineV8 validate config after where
  known := registry ▸ inv.known
  named := registry ▸ inv.named
  stems := registry ▸ inv.stems
  watched := registry ▸ inv.watched
  present := validated ▸ files ▸ inv.present
  written := written ▸ files ▸ inv.written
  kept := validated ▸ registry ▸ inv.kept
  fresh := validated ▸ registry ▸ inv.fresh
  due path owed := by
    have before : s.Owed engineV8 validate config path := by
      cases owed with
      | stale name entry found own gone => exact .stale name entry (registry ▸ found) own (validated ▸ gone)
      | unread content last passes missed => exact .unread content (written ▸ last) passes (validated ▸ missed)
    exact due path before (inv.due path before)

theorem mem_way (s : State) (path : String) : path ∈ s.way ↔ path ∈ s.notified.map WatchEvent.path ∨
    path ∈ s.raw.map WatchEvent.path ∨ path ∈ s.pending.map Prod.fst ∨ path ∈ s.batches.flatten ∨ path ∈ s.handling := by
  simp only [State.way,List.mem_append,or_assoc]

/-- The file of a path changes, and an event says so. What was validated of it may be forgotten. -/
theorem inv_changed (s : State) (path : String) (text : Option (Option String)) (validated : String → Option String)
    (event : WatchEvent) (inv : Inv engineV8 validate config s) (own : event.path = path)
    (others : ∀ other, other ≠ path → validated other = s.validated other)
    (known : ∀ source, validated path = some source → s.validated path = some source ∧ text.isSome = true) :
    Inv engineV8 validate config {s with
      files := fun other => if other = path then text else s.files other
      written := fun other => if other = path then text.join else s.written other
      validated := validated
      notified := s.notified ++ [event]} := by
  have earlier : ∀ other source, validated other = some source → s.validated other = some source := by
    intro other source found
    by_cases same : other = path
    · rw [same] at found ⊢
      exact (known source found).1
    · exact (others other same).symm.trans found
  refine ⟨inv.known,inv.named,inv.stems,inv.watched,?_,?_,?_,?_,?_⟩
  · intro other source found
    simp only
    split
    · rename_i same
      exact (known source (same ▸ found)).2
    · exact inv.present other source (earlier other source found)
  · intro other content last
    simp only at last ⊢
    split at last
    · rename_i same
      rw [if_pos same]
      exact Option.join_eq_some_iff.mp last
    · rename_i apart
      rw [if_neg apart]
      exact inv.written other content last
  · exact fun other source found => inv.kept other source (earlier other source found)
  · intro name entry found
    cases after : validated entry.path with
    | none => exact Or.inr after
    | some source =>
      have before := earlier entry.path source after
      rcases inv.fresh name entry found with same | gone
      · exact Or.inl (after.trans (before.symm.trans same))
      · rw [gone] at before
        cases before
  · intro other owed
    by_cases same : other = path
    · left
      rw [mem_way,List.map_append,List.mem_append]
      exact Or.inl (Or.inr (List.mem_singleton.mpr (same.trans own.symm)))
    · have before : s.Owed engineV8 validate config other := by
        cases owed with
        | stale name entry found at_ gone => exact .stale name entry found at_ ((others other same).symm.trans gone)
        | unread content last passes missed =>
          simp only [if_neg same] at last
          exact .unread content last passes (others other same ▸ missed)
      rcases inv.due other before with coming | ⟨reads,exists_⟩
      · left
        rw [mem_way] at coming
        rw [mem_way,List.map_append,List.mem_append]
        exact coming.imp_left Or.inl
      · right
        simp only [if_neg same]
        exact ⟨reads,exists_⟩

theorem inv_create (s : State) (path : String) (text : Option String) (inv : Inv engineV8 validate config s) :
    Inv engineV8 validate config (step engineV8 validate config s (.create path text)) := by
  unfold step
  simp only
  split
  · exact inv
  · refine inv_changed engineV8 validate config s path (some text) _ (.fileCreated path) inv rfl
      (fun other apart => if_neg apart) (fun source found => ?_)
    rw [if_pos rfl] at found
    cases found

theorem inv_edit (s : State) (path : String) (text : Option String) (inv : Inv engineV8 validate config s) :
    Inv engineV8 validate config (step engineV8 validate config s (.edit path text)) := by
  unfold step
  simp only
  split
  · exact inv
  · exact inv_changed engineV8 validate config s path (some text) s.validated (.fileChanged path) inv rfl
      (fun _ _ => rfl) (fun _ found => ⟨found,rfl⟩)

theorem inv_delete (s : State) (path : String) (inv : Inv engineV8 validate config s) :
    Inv engineV8 validate config (step engineV8 validate config s (.delete path)) := by
  unfold step
  simp only
  split
  · exact inv
  · refine inv_changed engineV8 validate config s path none _ (.fileRemoved path) inv rfl
      (fun other apart => if_neg apart) (fun source found => ?_)
    rw [if_pos rfl] at found
    cases found

theorem mem_accumulateEvent (pending : List (String × WatchEvent)) (event : WatchEvent) (path : String) :
    path ∈ (accumulateEvent pending event).map Prod.fst ↔ path ∈ pending.map Prod.fst ∨ path = event.path := by
  have replaced : path ∈ (pending.filter (fun other => other.1 ≠ event.path) ++ [(event.path,event)]).map Prod.fst ↔
      path ∈ pending.map Prod.fst ∨ path = event.path := by
    simp only [List.map_append,List.mem_append,List.mem_map,List.mem_filter,List.map_singleton,List.mem_singleton,
      decide_eq_true_eq]
    grind
  cases event with
  | fileChanged changed =>
    unfold accumulateEvent
    simp only
    split
    · rename_i present
      refine ⟨Or.inl,fun either => either.elim (fun earlier => earlier) (fun same => ?_)⟩
      rw [same]
      exact present
    · simp [WatchEvent.path]
  | fileCreated created => exact replaced
  | fileRemoved removed => exact replaced

theorem inv_notify (s : State) (inv : Inv engineV8 validate config s)
    (separate : Separate engineV8 validate config s .notify) :
    Inv engineV8 validate config (step engineV8 validate config s .notify) := by
  unfold step
  simp only
  split
  · exact inv
  · rename_i event rest notified
    split
    · rename_i fits
      refine inv_passed engineV8 validate config s _ inv rfl rfl rfl rfl
        (fun _ _ due => due.imp_left (fun coming => ?_))
      rw [mem_way,notified] at coming
      rw [mem_way]
      simp only [List.map_cons,List.mem_cons,List.map_append,List.mem_append,List.map_nil,List.not_mem_nil] at coming ⊢
      tauto
    · rename_i full
      refine inv_passed engineV8 validate config s _ inv rfl rfl rfl rfl
        (fun path owed due => due.imp_left (fun coming => ?_))
      by_cases own : path = event.path
      · have watched := owed_watched engineV8 validate config s path inv owed
        rw [own] at watched ⊢
        have stuck : rawCapacity ≤ s.raw.length := Nat.le_of_not_lt (fun room => full ⟨watched,room⟩)
        exact separate event rest notified watched stuck
      · rw [mem_way,notified] at coming
        rw [mem_way]
        simp only [List.map_cons,List.mem_cons] at coming ⊢
        tauto

theorem inv_accumulate (s : State) (inv : Inv engineV8 validate config s) :
    Inv engineV8 validate config (step engineV8 validate config s .accumulate) := by
  unfold step
  simp only
  split
  · exact inv
  · rename_i event rest raw
    refine inv_passed engineV8 validate config s _ inv rfl rfl rfl rfl
      (fun _ _ due => due.imp_left (fun coming => ?_))
    rw [mem_way,raw] at coming
    rw [mem_way,mem_accumulateEvent]
    simp only [List.map_cons,List.mem_cons] at coming
    tauto

theorem inv_flush (s : State) (paths : List String) (inv : Inv engineV8 validate config s) :
    Inv engineV8 validate config (step engineV8 validate config s (.flush paths)) := by
  unfold step
  simp only
  split
  · rename_i flushes
    have same := (List.isPerm_iff.mp flushes.1)
    refine inv_passed engineV8 validate config s _ inv rfl rfl rfl rfl
      (fun _ _ due => due.imp_left (fun coming => ?_))
    rw [mem_way,← same.mem_iff] at coming
    rw [mem_way]
    simp only [List.map_nil,List.not_mem_nil,List.flatten_append,List.mem_append,List.flatten_singleton]
    tauto
  · exact inv

theorem inv_recv (s : State) (inv : Inv engineV8 validate config s) :
    Inv engineV8 validate config (step engineV8 validate config s .recv) := by
  unfold step
  simp only
  split
  · rename_i paths rest batches handling _
    refine inv_passed engineV8 validate config s _ inv rfl rfl rfl rfl
      (fun _ _ due => due.imp_left (fun coming => ?_))
    rw [mem_way,batches,handling] at coming
    rw [mem_way]
    simp only [List.flatten_cons,List.mem_append,List.not_mem_nil] at coming ⊢
    tauto
  · exact inv

/-- The next path of the batch is handled, and the others are still ahead. -/
theorem way_handling (s : State) (path : String) (rest : List String) (handling : s.handling = path :: rest)
    (other : String) (coming : other ∈ s.way) : other = path ∨ other ∈ State.way {s with handling := rest} := by
  rw [mem_way,handling] at coming
  rw [mem_way]
  simp only [List.mem_cons] at coming ⊢
  tauto

/-- The script of a file that has gone is removed. -/
theorem inv_removed (s : State) (path : String) (rest : List String) (inv : Inv engineV8 validate config s)
    (handling : s.handling = path :: rest) (idle : s.loading = none) (gone : s.files path = none) :
    Inv engineV8 validate config {s with handling := rest, registry := handleFileRemoved s.registry path} := by
  have removed := get_removed s.registry path inv.named inv.stems
  refine ⟨known_removed s.registry path inv.known,?_,?_,?_,inv.present,inv.written,?_,?_,?_⟩
  · exact fun name entry there => inv.named name entry ((removed name entry).mp there).1
  · exact fun name entry there => inv.stems name entry ((removed name entry).mp there).1
  · exact fun name entry there => inv.watched name entry ((removed name entry).mp there).1
  · intro other source validated
    obtain ⟨name,entry,there,own,same⟩ := inv.kept other source validated
    refine ⟨name,entry,(removed name entry).mpr ⟨there,fun found => ?_⟩,own,same⟩
    have present := inv.present other source validated
    rw [← own,found,gone] at present
    cases present
  · exact fun name entry there => inv.fresh name entry ((removed name entry).mp there).1
  · intro other owed
    have before : other ≠ path ∧ s.Owed engineV8 validate config other := by
      cases owed with
      | stale name entry there own none =>
        obtain ⟨earlier,apart⟩ := (removed name entry).mp there
        exact ⟨own ▸ apart,.stale name entry earlier own none⟩
      | unread content last passes missed =>
        refine ⟨fun same => ?_,.unread content last passes missed⟩
        have present := inv.written other content last
        rw [same,gone] at present
        cases present
    rcases inv.due other before.2 with coming | ⟨reads,_⟩
    · exact Or.inl ((way_handling s path rest handling other coming).resolve_left before.1)
    · rw [idle] at reads
      cases reads

theorem inv_handle (s : State) (inv : Inv engineV8 validate config s) :
    Inv engineV8 validate config (step engineV8 validate config s .handle) := by
  unfold step
  simp only
  split
  · rename_i path rest handling idle
    cases found : s.files path with
    | some text =>
      refine inv_passed engineV8 validate config s _ inv rfl rfl rfl rfl (fun other _ due => ?_)
      rcases due with coming | ⟨reads,_⟩
      · rcases way_handling s path rest handling other coming with same | later
        · refine Or.inr ⟨congrArg some same.symm,?_⟩
          simp [same,found]
        · exact Or.inl later
      · rw [idle] at reads
        cases reads
    | none => exact inv_removed engineV8 validate config s path rest inv handling idle found
  · exact inv

/-- What a script put in place leaves under each name. -/
theorem get_installed (registry : ScriptRegistry) (entry : ScriptEntry) (known : Known registry) (named : Named registry)
    (name : String) (found : ScriptEntry) (there : get (install registry entry) name = some found) :
    (name ≠ entry.name ∧ get registry name = some found) ∨
      (name = entry.name ∧ found.name = name ∧ found.path = entry.path ∧ found.source = entry.source) := by
  rcases get_install registry entry known named name with ⟨apart,same⟩ | ⟨same,version,placed⟩
  · exact Or.inl ⟨apart,same ▸ there⟩
  · rw [placed] at there
    cases there
    exact Or.inr ⟨same,same.symm,rfl,rfl⟩

/-- After its file passed validation a path is owed nothing. -/
theorem owed_installed (s : State) (path content : String) (entry : ScriptEntry) (inv : Inv engineV8 validate config s)
    (file : s.files path = some (some content)) (own : entry.path = path) (other : String)
    (owed : State.Owed engineV8 validate config {s with
      loading := none
      registry := install s.registry entry
      validated := fun other => if other = path then some content else s.validated other} other) :
    other ≠ path ∧ s.Owed engineV8 validate config other := by
  have apart : other ≠ path := by
    intro same
    cases owed with
    | stale name found there place gone =>
      simp only [if_pos same] at gone
      cases gone
    | unread text last passes missed =>
      have written := inv.written other text last
      rw [same,file] at written
      cases written
      exact missed (if_pos same)
  refine ⟨apart,?_⟩
  cases owed with
  | stale name found there place gone =>
    simp only [if_neg apart] at gone
    rcases get_installed s.registry entry inv.known inv.named name found there with ⟨_,earlier⟩ | ⟨_,_,here,_⟩
    · exact .stale name found earlier place gone
    · exact absurd (place.symm.trans (here.trans own)) apart
  | unread text last passes missed =>
    simp only [if_neg apart] at missed
    exact .unread text last passes missed

/-- The texts validated before are still in place, as the name was free for the script. -/
theorem kept_installed (s : State) (path content : String) (entry : ScriptEntry) (inv : Inv engineV8 validate config s)
    (own : entry.path = path) (source : entry.source = content)
    (free : ∀ other, get s.registry entry.name = some other → other.path = path ∨ s.validated other.path = none)
    (other text : String) (validated : (if other = path then some content else s.validated other) = some text) :
    ∃ name found, get (install s.registry entry) name = some found ∧ found.path = other ∧ found.source = text := by
  have installed := get_install s.registry entry inv.known inv.named
  split at validated
  · rename_i same
    cases validated
    rcases installed entry.name with ⟨apart,_⟩ | ⟨_,version,placed⟩
    · exact absurd rfl apart
    · exact ⟨entry.name,_,placed,own.trans same.symm,source⟩
  · rename_i apart
    obtain ⟨name,found,there,place,same⟩ := inv.kept other text validated
    refine ⟨name,found,?_,place,same⟩
    rcases installed name with ⟨_,unchanged⟩ | ⟨taken,_⟩
    · exact unchanged.trans there
    · rw [taken] at there
      rcases free found there with same | gone
      · exact absurd (place.symm.trans same) apart
      · rw [place,validated] at gone
        cases gone

/-- The script of a file that passed validation is in place. -/
theorem inv_installed (s : State) (path content : String) (now : Nat) (entry : ScriptEntry)
    (inv : Inv engineV8 validate config s) (loading : s.loading = some path)
    (file : s.files path = some (some content))
    (checked : checkedEntry engineV8 validate config path content now = some entry)
    (free : ∀ other, get s.registry entry.name = some other → other.path = path ∨ s.validated other.path = none) :
    Inv engineV8 validate config {s with
      loading := none
      registry := install s.registry entry
      validated := fun other => if other = path then some content else s.validated other} := by
  obtain ⟨watched,stem,own,source⟩ := checkedEntry_spec engineV8 validate config path content now entry checked
  have installed := get_installed s.registry entry inv.known inv.named
  refine ⟨known_install s.registry entry inv.known,?_,?_,?_,?_,inv.written,?_,?_,?_⟩
  · intro name found there
    rcases installed name found there with ⟨_,before⟩ | ⟨_,title,_⟩
    · exact inv.named name found before
    · exact title
  · intro name found there
    rcases installed name found there with ⟨_,before⟩ | ⟨same,_,place,_⟩
    · exact inv.stems name found before
    · rw [place,own,same,stem]
  · intro name found there
    rcases installed name found there with ⟨_,before⟩ | ⟨_,_,place,_⟩
    · exact inv.watched name found before
    · exact place.trans own ▸ watched
  · intro other text validated
    simp only at validated
    split at validated
    · rename_i same
      simp only [same,file,Option.isSome_some]
    · exact inv.present other text validated
  · exact kept_installed engineV8 validate config s path content entry inv own source free
  · intro name found there
    rcases installed name found there with ⟨apart,before⟩ | ⟨_,_,place,text⟩
    · have away : found.path ≠ path := by
        intro same
        have other := inv.stems name found before
        rw [same,stem] at other
        exact apart (Option.some_inj.mp other).symm
      simp only [if_neg away]
      exact inv.fresh name found before
    · refine Or.inl ?_
      simp only [place,own,if_true,text,source]
  · intro other owed
    obtain ⟨apart,before⟩ := owed_installed engineV8 validate config s path content entry inv file own other owed
    rcases inv.due other before with coming | ⟨reads,_⟩
    · exact Or.inl coming
    · rw [loading] at reads
      exact absurd (Option.some_inj.mp reads).symm apart

theorem inv_load (s : State) (now : Nat) (inv : Inv engineV8 validate config s)
    (separate : Separate engineV8 validate config s (.load now)) :
    Inv engineV8 validate config (step engineV8 validate config s (.load now)) := by
  unfold step
  simp only
  cases loading : s.loading with
  | none => exact inv
  | some path =>
    have dropped : ((s.files path).isSome = true → s.Owed engineV8 validate config path → path ∈ s.way) →
        Inv engineV8 validate config {s with loading := none} := by
      intro again
      refine inv_passed engineV8 validate config s _ inv rfl rfl rfl rfl (fun other owed due => Or.inl ?_)
      rcases due with coming | ⟨reads,exists_⟩
      · exact coming
      · rw [loading] at reads
        cases reads
        exact again exists_ owed
    have failed : ∀ text, s.files path = some text →
        text.bind (fun content => checkedEntry engineV8 validate config path content now) = none →
        Inv engineV8 validate config {s with loading := none} := by
      intro text file fails
      have condition := separate path text loading file
      rw [fails] at condition
      refine dropped (fun _ owed => ?_)
      cases owed with
      | stale name entry found own gone =>
        exact (condition name entry found own).resolve_left (fun validated => validated gone)
      | unread content last passes missed =>
        have written := inv.written path content last
        rw [file] at written
        cases written
        obtain ⟨later,passed⟩ := passes
        exact absurd (checkedEntry_none engineV8 validate config path content now later fails) passed
    unfold handleFileChange
    cases file : s.files path with
    | none =>
      simp only [file]
      refine dropped (fun exists_ => ?_)
      rw [file] at exists_
      cases exists_
    | some text =>
      cases text with
      | none =>
        simp only [file]
        exact failed none file rfl
      | some content =>
        simp only [file]
        cases checked : checkedEntry engineV8 validate config path content now with
        | none => exact failed (some content) file checked
        | some entry =>
          have condition := separate path (some content) loading file
          rw [Option.bind_some,checked] at condition
          exact inv_installed engineV8 validate config s path content now entry inv loading file
            checked condition

theorem inv_step (s : State) (act : Act) (inv : Inv engineV8 validate config s)
    (separate : Separate engineV8 validate config s act) :
    Inv engineV8 validate config (step engineV8 validate config s act) := by
  cases act with
  | create path text => exact inv_create engineV8 validate config s path text inv
  | edit path text => exact inv_edit engineV8 validate config s path text inv
  | delete path => exact inv_delete engineV8 validate config s path inv
  | notify => exact inv_notify engineV8 validate config s inv separate
  | accumulate => exact inv_accumulate engineV8 validate config s inv
  | flush paths => exact inv_flush engineV8 validate config s paths inv
  | recv => exact inv_recv engineV8 validate config s inv
  | handle => exact inv_handle engineV8 validate config s inv
  | load now => exact inv_load engineV8 validate config s now inv separate

/-- What is registered from a path, at the one name it can have. -/
def textAt (registry : ScriptRegistry) (path name : String) : Option String :=
  (get registry name).bind (fun entry => if entry.path = path then some entry.source else none)

theorem texts_of_path (registry : ScriptRegistry) (path : String) :
    ((entries registry).filter (fun entry => entry.path = path)).map ScriptEntry.source =
      registry.names.entries.filterMap (fun entry => textAt registry path entry.1) := by
  unfold entries
  rw [List.filter_filterMap,List.map_filterMap]
  congr 1
  funext named
  unfold textAt
  cases get registry named.1 with
  | none => rfl
  | some entry => by_cases same : entry.path = path <;> simp [same]

theorem nothing_owed (s : State) (inv : Inv engineV8 validate config s) (quiet : s.Quiet) (path : String) :
    ¬s.Owed engineV8 validate config path := by
  intro owed
  obtain ⟨notified,raw,pending,batches,handling,loading⟩ := quiet
  rcases inv.due path owed with coming | ⟨reads,_⟩
  · rw [mem_way,notified,raw,pending,batches,handling] at coming
    simp at coming
  · rw [loading] at reads
    cases reads

theorem current_of_inv (s : State) (inv : Inv engineV8 validate config s) (quiet : s.Quiet) :
    s.Current engineV8 validate config := by
  intro path content last passes
  by_contra missed
  exact nothing_owed engineV8 validate config s inv quiet path (.unread content last passes missed)

theorem mirrors_of_inv (s : State) (inv : Inv engineV8 validate config s) (quiet : s.Quiet) : s.Mirrors := by
  intro path
  have current : ∀ name entry, get s.registry name = some entry → s.validated entry.path = some entry.source :=
    fun name entry found => (inv.fresh name entry found).resolve_right
      (fun gone => nothing_owed engineV8 validate config s inv quiet entry.path (.stale name entry found rfl gone))
  have reads : ∀ name source, textAt s.registry path name = some source →
      s.validated path = some source ∧ fileStem path = some name := by
    intro name source found
    obtain ⟨entry,there,same⟩ := Option.bind_eq_some_iff.mp found
    split at same
    · rename_i own
      cases same
      have validated := current name entry there
      have stem := inv.stems name entry there
      rw [own] at validated stem
      exact ⟨validated,stem⟩
    · cases same
  rw [texts_of_path]
  have only : ∀ name, textAt s.registry path name ≠ none → name = (fileStem path).getD "" := by
    intro name found
    obtain ⟨source,found⟩ := Option.ne_none_iff_exists'.mp found
    rw [(reads name source found).2,Option.getD_some]
  have absent : (fileStem path).getD "" ∉ s.registry.names.entries.keys →
      textAt s.registry path ((fileStem path).getD "") = none := by
    intro missing
    by_contra found
    obtain ⟨source,found⟩ := Option.ne_none_iff_exists'.mp found
    obtain ⟨entry,there,_⟩ := Option.bind_eq_some_iff.mp found
    obtain ⟨i,_,named,_⟩ := (get_iff s.registry _ entry).mp there
    exact missing (AList.mem_keys.mpr (AList.lookup_isSome.mp (by rw [named]; rfl)))
  rw [filterMap_one s.registry.names.entries s.registry.names.nodupKeys _ (textAt s.registry path) only absent]
  congr 1
  cases validated : s.validated path with
  | none =>
    by_contra found
    obtain ⟨source,found⟩ := Option.ne_none_iff_exists'.mp found
    rw [(reads _ source found).1] at validated
    cases validated
  | some source =>
    obtain ⟨name,entry,there,own,text⟩ := inv.kept path source validated
    have stem := inv.stems name entry there
    rw [own] at stem
    rw [stem,Option.getD_some,textAt,there,Option.bind_some,if_pos own,text]

theorem inv_start (files : String → Option (Option String)) : Inv engineV8 validate config (start config files) := by
  have nothing : ∀ name entry, get (start config files).registry name ≠ some entry := by
    intro name entry found
    obtain ⟨_,_,named,_⟩ := (get_iff _ name entry).mp found
    change (∅ : Table String Nat).lookup name = some _ at named
    rw [AList.lookup_empty] at named
    cases named
  refine ⟨new_known config.maxHistorySize,fun name entry found => absurd found (nothing name entry),
    fun name entry found => absurd found (nothing name entry),fun name entry found => absurd found (nothing name entry),
    fun _ _ clash => (by cases clash),fun _ _ clash => (by cases clash),fun _ _ clash => (by cases clash),
    fun name entry found => absurd found (nothing name entry),?_⟩
  intro path owed
  cases owed with
  | stale name entry found _ _ => exact absurd found (nothing name entry)
  | unread content last _ _ => cases last

theorem separate_unnamed (s : State) (now : Nat) (unnamed : s.registry.names.entries = []) :
    Separate engineV8 validate config s (.load now) := by
  have nothing : ∀ name other, get s.registry name ≠ some other := by
    intro name other found
    obtain ⟨i,_,named,_⟩ := (get_iff s.registry name other).mp found
    have member := (entry_iff s.registry.names name i).mpr named
    rw [unnamed] at member
    cases member
  intro path text _ _
  split
  · exact fun other found => absurd found (nothing _ other)
  · exact fun name other found => absurd found (nothing name other)

/-- Whenever all events are handled the registry mirrors the files, in every run that keeps to
the condition. -/
theorem mirrored_along (files : String → Option (Option String)) (acts : List Act)
    (separate : Along (step engineV8 validate config) (Separate engineV8 validate config) (start config files) acts) :
    Always (step engineV8 validate config) (Mirrored engineV8 validate config) (start config files) acts := by
  have always := always_of_along (step engineV8 validate config) (Separate engineV8 validate config)
    (Inv engineV8 validate config)
    (fun s act inv separate => inv_step engineV8 validate config s act inv separate) (start config files) acts
    (inv_start engineV8 validate config files) separate
  refine always_mono (step engineV8 validate config) (Inv engineV8 validate config) (Mirrored engineV8 validate config)
    (fun s inv quiet => ?_) (start config files) acts always
  exact ⟨mirrors_of_inv engineV8 validate config s inv quiet,current_of_inv engineV8 validate config s inv quiet⟩

end Manager

def luaScripts : HotReloadConfig := ⟨["lua"],5,true,none⟩

/-- One script is created and loaded. -/
theorem mirrored_greeting :
    Always (step false (fun _ => true) luaScripts) (Mirrored false (fun _ => true) luaScripts)
      (start luaScripts (fun _ => none))
      [.create "/a/x.lua" (some "return 1"),.notify,.accumulate,.flush ["/a/x.lua"],.recv,.handle,.load 0] := by
  refine mirrored_along false (fun _ => true) luaScripts (fun _ => none) _
    ⟨trivial,?_,trivial,trivial,trivial,trivial,?_,trivial⟩
  · exact fun _ _ _ _ full => absurd full (by decide)
  · exact separate_unnamed false (fun _ => true) luaScripts _ 0 (by decide +kernel)

/-- Two directories have a script of one stem, and the first is displaced by the second; a
file is deleted and created again with a text that does not pass, and its old text stays. -/
theorem stem_shared :
    ¬Always (step false (fun _ => true) luaScripts) (Mirrored false (fun _ => true) luaScripts)
      (start luaScripts (fun _ => none))
      [.create "/a/x.lua" (some "return 1"),.create "/b/x.lua" (some "return 2"),.notify,.notify,.accumulate,.accumulate,
        .flush ["/a/x.lua","/b/x.lua"],.recv,.handle,.load 0,.handle,.load 1] ∧
    ¬Always (step false (fun script => script.source ≠ "") luaScripts)
      (Mirrored false (fun script => script.source ≠ "") luaScripts) (start luaScripts (fun _ => none))
      [.create "/a/x.lua" (some "return 1"),.notify,.accumulate,.flush ["/a/x.lua"],.recv,.handle,.load 0,
        .delete "/a/x.lua",.create "/a/x.lua" (some ""),.notify,.notify,.accumulate,.accumulate,.flush ["/a/x.lua"],
        .recv,.handle,.load 1] := by
  constructor
  · intro always
    have mirrors := (always_end _ _ _ _ always (by unfold State.Quiet; decide +kernel)).1 "/a/x.lua"
    revert mirrors
    decide +kernel
  · intro always
    have mirrors := (always_end _ _ _ _ always (by unfold State.Quiet; decide +kernel)).1 "/a/x.lua"
    revert mirrors
    decide +kernel

end ClawKernel.Script.HotReload
