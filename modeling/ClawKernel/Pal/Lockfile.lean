import ClawKernel.Lib.Addresses
import ClawKernel.Lib.Runs
import ClawKernel.Pal.Security

/-! The daemon's lock file. A guard is an exclusive lock on the file that was at the path when its
call opened it; the path may come to lead to another file in between, and a dropped guard removes
whatever file is there.
-/
namespace ClawKernel.Pal.Lockfile
open Lib.Runs Lib.Addresses
open Provider.Sse (trim isWhitespace trim_tight)
open Pal.Security (readToString)

/-- Where a call of `acquire` and the guard it returns stand; the number is the open file's. -/
inductive Phase where
  | idle
  | opened (ino : ℕ)
  | locked (ino : ℕ)
  | cleared (ino : ℕ)
  | guarded (ino : ℕ)
  | busy (ino : ℕ)
  | removed (ino : ℕ)
  | refused (pid : UInt32)
  | closed
  deriving DecidableEq, Repr

/-- The open file that keeps a lock. -/
def Phase.keeps : Phase → Option ℕ
  | .locked ino | .cleared ino | .guarded ino | .removed ino => some ino
  | _ => none

/-- The lock of a call that has not begun to give it up. -/
def Phase.holds : Phase → Option ℕ
  | .locked ino | .cleared ino | .guarded ino => some ino
  | _ => none

def Phase.ino : Phase → Option ℕ
  | .opened ino | .busy ino => some ino
  | phase => phase.keeps

structure File where
  content : List UInt8
  holder : Option ℕ

/-- The file at the path, all files ever made, and the calls. -/
structure State where
  path : Option ℕ
  files : ℕ → File
  next : ℕ
  calls : ℕ → Phase

/-- The first file, if there is one, is left from an earlier daemon. -/
def start (content : Option (List UInt8)) : State where
  path := content.map (fun _ => 0)
  files := fun _ => ⟨content.getD [],none⟩
  next := 1
  calls := fun _ => .idle

def State.enter (s : State) (n : ℕ) (phase : Phase) : State := { s with calls := Function.update s.calls n phase }

def State.fill (s : State) (ino : ℕ) (content : List UInt8) : State :=
  { s with files := Function.update s.files ino { s.files ino with content := content } }

def State.keep (s : State) (ino : ℕ) (holder : Option ℕ) : State :=
  { s with files := Function.update s.files ino { s.files ino with holder := holder } }

/-- A fresh file at the path, where there is none. -/
def State.make (s : State) : State :=
  { s with path := some s.next, files := Function.update s.files s.next ⟨[],none⟩, next := s.next + 1 }

def parseU32 (text : List Char) : Option UInt32 :=
  let digits := if text.head? = some '+' then text.tail else text
  if digits = [] then none
  else (readDigits 10 0 digits).bind (fun n => if n < 2 ^ 32 then some (UInt32.ofNat n) else none)

def pidText (pid : UInt32) : List UInt8 := pid.toNat.repr.toUTF8.data.toList

def parsePid (content : List UInt8) : Option UInt32 :=
  match readToString ⟨content.toArray⟩ with
  | .ok text => parseU32 (trim text.toList)
  | .error _ => none

def readPid (s : State) : Option UInt32 := s.path.bind (fun ino => parsePid (s.files ino).content)

inductive Event where
  | advance
  | drop
  | crash
  deriving DecidableEq, Repr

section Steps
variable (pid : ℕ → UInt32)

/-- The next system call of a call, the drop of its guard, or the end of its process. -/
def step (s : State) : ℕ × Event → State
  | (n,.advance) =>
    match s.calls n with
    | .idle =>
      match s.path with
      | some ino => (s.fill ino []).enter n (.opened ino)
      | none => s.make.enter n (.opened s.next)
    | .opened ino =>
      match (s.files ino).holder with
      | none => (s.keep ino (some n)).enter n (.locked ino)
      | some _ => s.enter n (.busy ino)
    | .locked ino => (s.fill ino []).enter n (.cleared ino)
    | .cleared ino =>
      (s.fill ino (pidText (pid n) ++ (s.files ino).content.drop (pidText (pid n)).length)).enter n (.guarded ino)
    | .busy _ => s.enter n (.refused ((readPid s).getD 0))
    | .removed ino => (s.keep ino none).enter n .closed
    | _ => s
  | (n,.drop) =>
    match s.calls n with
    | .guarded ino => { s with path := none }.enter n (.removed ino)
    | _ => s
  | (n,.crash) =>
    match (s.calls n).ino with
    | some ino => (if (s.calls n).keeps = some ino then s.keep ino none else s).enter n .closed
    | none => s

end Steps

def Exclusive (s : State) : Prop :=
  ∀ m n, (s.calls m).holds ≠ none → (s.calls n).holds ≠ none → m = n

/-- A call that begins and asks for the lock at once. -/
def acquired (pid : ℕ → UInt32) (s : State) (n : ℕ) : State := step pid (step pid s (n,.advance)) (n,.advance)

/-- At most one call holds a lock, also after one more call. -/
def Secure (pid : ℕ → UInt32) (s : State) : Prop :=
  Exclusive s ∧ ∀ n, s.calls n = .idle → Exclusive (acquired pid s n)

/-- No lock is granted on a file that is no longer the one at the path. -/
def Current (s : State) (i : ℕ × Event) : Prop :=
  i.2 = .advance → ∀ ino, s.calls i.1 = .opened ino → (s.files ino).holder = none → s.path = some ino

section Fields
variable (s : State) (n : ℕ) (phase : Phase) (ino : ℕ) (content : List UInt8) (holder : Option ℕ)

@[simp] theorem enter_self : (s.enter n phase).calls n = phase := Function.update_self ..
@[simp] theorem enter_other (m : ℕ) (other : m ≠ n) : (s.enter n phase).calls m = s.calls m := Function.update_of_ne other ..
@[simp] theorem enter_path : (s.enter n phase).path = s.path := rfl
@[simp] theorem enter_files : (s.enter n phase).files = s.files := rfl
@[simp] theorem enter_next : (s.enter n phase).next = s.next := rfl
@[simp] theorem fill_calls : (s.fill ino content).calls = s.calls := rfl
@[simp] theorem fill_path : (s.fill ino content).path = s.path := rfl
@[simp] theorem fill_next : (s.fill ino content).next = s.next := rfl
@[simp] theorem fill_content : ((s.fill ino content).files ino).content = content := by simp [State.fill]
@[simp] theorem fill_holder (i : ℕ) : ((s.fill ino content).files i).holder = (s.files i).holder := by
  by_cases same : i = ino
  · subst same
    simp [State.fill]
  · simp [State.fill,same]
@[simp] theorem keep_calls : (s.keep ino holder).calls = s.calls := rfl
@[simp] theorem keep_path : (s.keep ino holder).path = s.path := rfl
@[simp] theorem keep_next : (s.keep ino holder).next = s.next := rfl
@[simp] theorem keep_self : ((s.keep ino holder).files ino).holder = holder := by simp [State.keep]
@[simp] theorem keep_other (i : ℕ) (other : i ≠ ino) : (s.keep ino holder).files i = s.files i := Function.update_of_ne other ..
@[simp] theorem keep_content (i : ℕ) : ((s.keep ino holder).files i).content = (s.files i).content := by
  by_cases same : i = ino
  · subst same
    simp [State.keep]
  · simp [State.keep,same]
@[simp] theorem make_calls : s.make.calls = s.calls := rfl
@[simp] theorem make_path : s.make.path = some s.next := rfl
@[simp] theorem make_next : s.make.next = s.next + 1 := rfl
@[simp] theorem make_self : s.make.files s.next = ⟨[],none⟩ := Function.update_self ..
@[simp] theorem make_other (i : ℕ) (other : i ≠ s.next) : s.make.files i = s.files i := Function.update_of_ne other ..

end Fields

/-- What a step changes of the path, the locks and the calls, by the phase it starts in. -/
inductive Moves (s : State) (n : ℕ) (event : Event) (t : State) : Prop
  | stays (begun : event = .advance → s.calls n ≠ .idle) (same : t = s)
  | opens (ino : ℕ) (asked : event = .advance) (was : s.calls n = .idle) (there : s.path = some ino)
      (now : t = (s.fill ino []).enter n (.opened ino))
  | makes (asked : event = .advance) (was : s.calls n = .idle) (bare : s.path = none)
      (now : t = s.make.enter n (.opened s.next))
  | locks (ino : ℕ) (asked : event = .advance) (was : s.calls n = .opened ino) (free : (s.files ino).holder = none)
      (now : t = (s.keep ino (some n)).enter n (.locked ino))
  | fails (ino m : ℕ) (was : s.calls n = .opened ino) (kept : (s.files ino).holder = some m) (now : t = s.enter n (.busy ino))
  | clears (ino : ℕ) (was : s.calls n = .locked ino) (now : t = (s.fill ino []).enter n (.cleared ino))
  | writes (ino : ℕ) (content : List UInt8) (was : s.calls n = .cleared ino)
      (now : t = (s.fill ino content).enter n (.guarded ino))
  | reports (ino : ℕ) (was : s.calls n = .busy ino) (now : t = s.enter n (.refused ((readPid s).getD 0)))
  | removes (ino : ℕ) (was : s.calls n = .guarded ino) (now : t = { s with path := none }.enter n (.removed ino))
  | closes (ino : ℕ) (kept : (s.calls n).keeps = some ino) (now : t = (s.keep ino none).enter n .closed)
  | leaves (ino : ℕ) (had : (s.calls n).ino = some ino) (free : (s.calls n).keeps ≠ some ino) (now : t = s.enter n .closed)

theorem step_moves (pid : ℕ → UInt32) (s : State) (i : ℕ × Event) : Moves s i.1 i.2 (step pid s i) := by
  obtain ⟨n,event⟩ := i
  cases event with
  | advance =>
    cases was : s.calls n with
    | idle =>
      cases there : s.path with
      | some ino => exact .opens ino rfl was there (by simp only [step,was,there])
      | none => exact .makes rfl was there (by simp only [step,was,there])
    | opened ino =>
      cases kept : (s.files ino).holder with
      | none => exact .locks ino rfl was kept (by simp only [step,was,kept])
      | some m => exact .fails ino m was kept (by simp only [step,was,kept])
    | locked ino => exact .clears ino was (by simp only [step,was])
    | cleared ino =>
      exact .writes ino (pidText (pid n) ++ (s.files ino).content.drop (pidText (pid n)).length) was
        (by simp only [step,was])
    | busy ino => exact .reports ino was (by simp only [step,was])
    | removed ino => exact .closes ino (by rw [was]; rfl) (by simp only [step,was])
    | guarded ino => exact .stays (fun _ => by rw [was]; simp) (by simp only [step,was])
    | refused p => exact .stays (fun _ => by rw [was]; simp) (by simp only [step,was])
    | closed => exact .stays (fun _ => by rw [was]; simp) (by simp only [step,was])
  | drop =>
    by_cases guarded : ∃ ino, s.calls n = .guarded ino
    · obtain ⟨ino,was⟩ := guarded
      exact .removes ino was (by simp only [step,was])
    · refine .stays (fun asked => by cases asked) ?_
      simp only [step]
      split
      · rename_i ino was
        exact absurd ⟨ino,was⟩ guarded
      · rfl
  | crash =>
    cases had : (s.calls n).ino with
    | none => exact .stays (fun asked => by cases asked) (by simp only [step,had])
    | some ino =>
      by_cases kept : (s.calls n).keeps = some ino
      · exact .closes ino kept (by simp only [step,had,kept,if_true])
      · exact .leaves ino had kept (by simp only [step,had,if_neg kept])

/-- What holds of the files and the calls in every state that is reached. -/
structure Sound (s : State) : Prop where
  owner : ∀ i n, (s.files i).holder = some n ↔ (s.calls n).keeps = some i
  old : ∀ n i, (s.calls n).ino = some i → i < s.next
  link : ∀ i, s.path = some i → i < s.next
  gone : ∀ n i, s.calls n = .removed i → s.path ≠ some i
  begun : ∃ bound, ∀ n, bound ≤ n → s.calls n = .idle

theorem sound_start (content : Option (List UInt8)) : Sound (start content) where
  owner i n := by simp [start,Phase.keeps]
  old n i had := by cases had
  link i there := by
    cases content with
    | none => cases there
    | some text =>
      cases there
      exact Nat.zero_lt_one
  gone n i removed := by cases removed
  begun := ⟨0,fun _ _ => rfl⟩

theorem sound_fill (s : State) (sound : Sound s) (ino : ℕ) (content : List UInt8) : Sound (s.fill ino content) := by
  refine ⟨fun i n => ?_,sound.old,sound.link,sound.gone,sound.begun⟩
  rw [fill_holder,fill_calls]
  exact sound.owner i n

theorem begun_enter (s : State) (begun : ∃ bound, ∀ n, bound ≤ n → s.calls n = .idle) (n : ℕ) (phase : Phase) :
    ∃ bound, ∀ m, bound ≤ m → (s.enter n phase).calls m = .idle := by
  obtain ⟨bound,idle⟩ := begun
  refine ⟨max bound (n + 1),fun m above => ?_⟩
  rw [enter_other s n phase m (by omega)]
  exact idle m (by omega)

/-- A call moves to a phase with the same lock. -/
theorem sound_enter (s : State) (sound : Sound s) (n : ℕ) (phase : Phase) (same : phase.keeps = (s.calls n).keeps)
    (old : ∀ i, phase.ino = some i → i < s.next) (gone : ∀ i, phase = .removed i → s.path ≠ some i) :
    Sound (s.enter n phase) where
  owner i m := by
    rw [enter_files,sound.owner]
    by_cases self : m = n
    · subst self
      rw [enter_self,same]
    · rw [enter_other s n phase m self]
  old m i had := by
    by_cases self : m = n
    · subst self
      rw [enter_self] at had
      exact old i had
    · rw [enter_other s n phase m self] at had
      exact sound.old m i had
  link := sound.link
  gone m i removed := by
    by_cases self : m = n
    · subst self
      rw [enter_self] at removed
      exact gone i removed
    · rw [enter_other s n phase m self] at removed
      exact sound.gone m i removed
  begun := begun_enter s sound.begun n phase

theorem ino_of_keeps (phase : Phase) (ino : ℕ) (keeps : phase.keeps = some ino) : phase.ino = some ino := by
  cases phase <;> simp_all [Phase.keeps,Phase.ino]

theorem sound_make (s : State) (sound : Sound s) : Sound s.make where
  owner i n := by
    by_cases fresh : i = s.next
    · subst fresh
      have unborn : (s.calls n).keeps ≠ some s.next := fun keeps =>
        absurd (sound.old n s.next (ino_of_keeps _ _ keeps)) (lt_irrefl _)
      simp [unborn]
    · rw [make_other s i fresh]
      exact sound.owner i n
  old n i had := Nat.lt_succ_of_lt (sound.old n i had)
  link i there := by
    rw [make_path,Option.some_inj] at there
    rw [make_next,← there]
    exact Nat.lt_succ_self _
  gone n i removed there := by
    rw [make_path,Option.some_inj] at there
    have older := sound.old n i (by rw [show s.calls n = .removed i from removed]; rfl)
    exact absurd older (by omega)
  begun := sound.begun

theorem sound_locks (s : State) (sound : Sound s) (n ino : ℕ) (was : s.calls n = .opened ino)
    (free : (s.files ino).holder = none) : Sound ((s.keep ino (some n)).enter n (.locked ino)) where
  owner i m := by
    rw [enter_files]
    by_cases here : i = ino
    · subst here
      rw [keep_self]
      by_cases self : m = n
      · subst self
        simp [Phase.keeps]
      · have other : (s.calls m).keeps ≠ some i := fun keeps => by
          rw [(sound.owner i m).mpr keeps] at free
          cases free
        simp [self,other,Ne.symm self]
    · rw [keep_other s ino _ i here,sound.owner]
      by_cases self : m = n
      · subst self
        simp [was,Phase.keeps,Ne.symm here]
      · rw [enter_other _ n _ m self,keep_calls]
  old m i had := by
    by_cases self : m = n
    · subst self
      rw [enter_self] at had
      exact sound.old m i (by rw [was]; exact had)
    · rw [enter_other _ n _ m self] at had
      exact sound.old m i had
  link := sound.link
  gone m i removed := by
    by_cases self : m = n
    · subst self
      rw [enter_self] at removed
      cases removed
    · rw [enter_other _ n _ m self] at removed
      exact sound.gone m i removed
  begun := begun_enter (s.keep ino (some n)) sound.begun n _

theorem sound_closes (s : State) (sound : Sound s) (n ino : ℕ) (kept : (s.calls n).keeps = some ino) :
    Sound ((s.keep ino none).enter n .closed) where
  owner i m := by
    rw [enter_files]
    by_cases here : i = ino
    · subst here
      rw [keep_self]
      by_cases self : m = n
      · subst self
        simp [Phase.keeps]
      · have other : (s.calls m).keeps ≠ some i := fun keeps =>
          self (Option.some_inj.mp (((sound.owner i m).mpr keeps).symm.trans ((sound.owner i n).mpr kept)))
        simp [self,other]
    · rw [keep_other s ino _ i here,sound.owner]
      by_cases self : m = n
      · subst self
        rw [kept,enter_self]
        exact iff_of_false (fun same => here (Option.some_inj.mp same).symm) (fun closed => by cases closed)
      · rw [enter_other _ n _ m self,keep_calls]
  old m i had := by
    by_cases self : m = n
    · subst self
      rw [enter_self] at had
      cases had
    · rw [enter_other _ n _ m self] at had
      exact sound.old m i had
  link := sound.link
  gone m i removed := by
    by_cases self : m = n
    · subst self
      rw [enter_self] at removed
      cases removed
    · rw [enter_other _ n _ m self] at removed
      exact sound.gone m i removed
  begun := begun_enter (s.keep ino none) sound.begun n _

theorem sound_unlink (s : State) (sound : Sound s) : Sound { s with path := none } :=
  ⟨sound.owner,sound.old,fun i there => (by cases there),fun n i _ there => (by cases there),sound.begun⟩

theorem sound_moves (s t : State) (n : ℕ) (event : Event) (sound : Sound s) (moves : Moves s n event t) : Sound t := by
  cases moves with
  | stays started same => exact same ▸ sound
  | opens ino asked was there now =>
    rw [now]
    refine sound_enter _ (sound_fill s sound ino []) n _ (by rw [fill_calls,was]; rfl) (fun i had => ?_) (by simp)
    cases had
    exact sound.link ino there
  | makes asked was bare now =>
    rw [now]
    refine sound_enter _ (sound_make s sound) n _ (by rw [make_calls,was]; rfl) (fun i had => ?_) (by simp)
    cases had
    exact Nat.lt_succ_self _
  | locks ino asked was free now => exact now ▸ sound_locks s sound n ino was free
  | fails ino m was kept now =>
    rw [now]
    refine sound_enter s sound n _ (by rw [was]; rfl) (fun i had => sound.old n i ?_) (by simp)
    rw [was]
    exact had
  | clears ino was now =>
    rw [now]
    refine sound_enter _ (sound_fill s sound ino []) n _ (by rw [fill_calls,was]; rfl) (fun i had => sound.old n i ?_) (by simp)
    rw [was]
    exact had
  | writes ino content was now =>
    rw [now]
    refine sound_enter _ (sound_fill s sound ino content) n _ (by rw [fill_calls,was]; rfl) (fun i had => sound.old n i ?_)
      (by simp)
    rw [was]
    exact had
  | reports ino was now =>
    rw [now]
    exact sound_enter s sound n _ (by rw [was]; rfl) (fun i had => by cases had) (by simp)
  | removes ino was now =>
    rw [now]
    refine sound_enter _ (sound_unlink s sound) n _ ?_ (fun i had => sound.old n i ?_) (by simp)
    · exact (congrArg Phase.keeps was).symm
    · rw [was]
      exact had
  | closes ino kept now => exact now ▸ sound_closes s sound n ino kept
  | leaves ino had free now =>
    have nothing : (s.calls n).keeps = none := by
      cases kept : (s.calls n).keeps with
      | none => rfl
      | some other =>
        have same := had.symm.trans (ino_of_keeps _ _ kept)
        exact absurd (kept.trans same.symm) free
    rw [now]
    exact sound_enter s sound n _ nothing.symm (fun i had => by cases had) (by simp)

theorem sound_step (pid : ℕ → UInt32) (s : State) (i : ℕ × Event) (sound : Sound s) : Sound (step pid s i) :=
  sound_moves s _ i.1 i.2 sound (step_moves pid s i)

/-- Every lock that is held and not being given up is on the file at the path. -/
def Linked (s : State) : Prop := ∀ n ino, (s.calls n).holds = some ino → s.path = some ino

theorem keeps_of_holds (phase : Phase) (ino : ℕ) (holds : phase.holds = some ino) : phase.keeps = some ino := by
  cases phase <;> simp_all [Phase.keeps,Phase.holds]

theorem holds_or_removed (phase : Phase) (ino : ℕ) (keeps : phase.keeps = some ino) :
    phase.holds = some ino ∨ phase = .removed ino := by
  cases phase <;> simp_all [Phase.keeps,Phase.holds]

/-- A file has one lock. -/
theorem holds_one (s : State) (sound : Sound s) (m n ino : ℕ) (first : (s.calls m).holds = some ino)
    (second : (s.calls n).holds = some ino) : m = n := by
  have one := (sound.owner ino m).mpr (keeps_of_holds _ _ first)
  have other := (sound.owner ino n).mpr (keeps_of_holds _ _ second)
  exact Option.some_inj.mp (one.symm.trans other)

theorem exclusive_of_linked (s : State) (sound : Sound s) (linked : Linked s) : Exclusive s := by
  intro m n first second
  obtain ⟨i,mine⟩ := Option.ne_none_iff_exists'.mp first
  obtain ⟨j,yours⟩ := Option.ne_none_iff_exists'.mp second
  obtain rfl := Option.some_inj.mp ((linked m i mine).symm.trans (linked n j yours))
  exact holds_one s sound m n i mine yours

theorem linked_enter (s : State) (linked : Linked s) (n : ℕ) (phase : Phase)
    (holds : ∀ ino, phase.holds = some ino → s.path = some ino) : Linked (s.enter n phase) := by
  intro m ino held
  by_cases self : m = n
  · subst self
    rw [enter_self] at held
    exact holds ino held
  · rw [enter_other _ n _ m self] at held
    exact linked m ino held

theorem linked_moves (s t : State) (n : ℕ) (event : Event) (sound : Sound s) (linked : Linked s)
    (current : Current s (n,event)) (moves : Moves s n event t) : Linked t := by
  cases moves with
  | stays started same => exact same ▸ linked
  | opens ino asked was there now => exact now ▸ linked_enter (s.fill ino []) linked n _ (fun j held => by cases held)
  | makes asked was bare now =>
    rw [now]
    refine linked_enter s.make (fun m j held => ?_) n _ (fun j held => by cases held)
    have there := linked m j held
    rw [bare] at there
    cases there
  | locks ino asked was free now =>
    rw [now]
    refine linked_enter (s.keep ino (some n)) linked n _ (fun j held => ?_)
    cases held
    exact current asked ino was free
  | fails ino m was kept now => exact now ▸ linked_enter s linked n _ (fun j held => by cases held)
  | clears ino was now =>
    refine now ▸ linked_enter (s.fill ino []) linked n _ (fun j held => linked n j ?_)
    rw [was]
    exact held
  | writes ino content was now =>
    refine now ▸ linked_enter (s.fill ino content) linked n _ (fun j held => linked n j ?_)
    rw [was]
    exact held
  | reports ino was now => exact now ▸ linked_enter s linked n _ (fun j held => by cases held)
  | removes ino was now =>
    rw [now]
    intro m j held
    by_cases self : m = n
    · subst self
      rw [enter_self] at held
      cases held
    · rw [enter_other _ n _ m self] at held
      have mine : (s.calls n).holds = some ino := by rw [was]; rfl
      exact absurd (exclusive_of_linked s sound linked m n (Option.ne_none_iff_exists'.mpr ⟨j,held⟩)
        (Option.ne_none_iff_exists'.mpr ⟨ino,mine⟩)) self
  | closes ino kept now => exact now ▸ linked_enter (s.keep ino none) linked n _ (fun j held => by cases held)
  | leaves ino had free now => exact now ▸ linked_enter s linked n _ (fun j held => by cases held)

section Guards
variable (pid : ℕ → UInt32)

theorem linked_step (s : State) (i : ℕ × Event) (sound : Sound s) (linked : Linked s) (current : Current s i) :
    Linked (step pid s i) := linked_moves s _ i.1 i.2 sound linked current (step_moves pid s i)

/-- A call that begins opens the file at the path, or makes one there. -/
theorem step_idle (s : State) (n : ℕ) (idle : s.calls n = .idle) :
    ∃ ino, (step pid s (n,.advance)).calls = Function.update s.calls n (.opened ino) ∧
      (step pid s (n,.advance)).path = some ino ∧ (s.path = some ino ∨ s.path = none ∧ ino = s.next) := by
  cases there : s.path with
  | some ino =>
    refine ⟨ino,?_,?_,.inl rfl⟩
    · simp only [step,idle,there]
      rfl
    · simp only [step,idle,there]
      exact there
  | none =>
    refine ⟨s.next,?_,?_,.inr ⟨rfl,rfl⟩⟩
    · simp only [step,idle,there]
      rfl
    · simp only [step,idle,there]
      rfl

/-- The state after a call has begun and asked: it has the lock of the file at the path, or another call keeps it. -/
theorem acquired_cases (s : State) (n : ℕ) (idle : s.calls n = .idle) :
    ∃ ino, (s.path = some ino ∨ s.path = none ∧ ino = s.next) ∧
      ((acquired pid s n).calls = Function.update s.calls n (.locked ino) ∨
        (acquired pid s n).calls = Function.update s.calls n (.busy ino) ∧
          ∃ m, ((step pid s (n,.advance)).files ino).holder = some m ∧ (step pid s (n,.advance)).calls n = .opened ino ∧
            (step pid s (n,.advance)).calls = Function.update s.calls n (.opened ino)) := by
  obtain ⟨ino,calls,there,leads⟩ := step_idle pid s n idle
  have opened : (step pid s (n,.advance)).calls n = .opened ino := by rw [calls,Function.update_self]
  refine ⟨ino,leads,?_⟩
  unfold acquired
  generalize step pid s (n,.advance) = t at calls opened
  cases kept : (t.files ino).holder with
  | none =>
    refine .inl ?_
    simp only [step,opened,kept]
    rw [State.enter,keep_calls,calls,Function.update_idem]
  | some m =>
    refine .inr ⟨?_,m,rfl,opened,calls⟩
    simp only [step,opened,kept]
    rw [State.enter,calls,Function.update_idem]

theorem secure_of_linked (s : State) (sound : Sound s) (linked : Linked s) : Secure pid s := by
  refine ⟨exclusive_of_linked s sound linked,fun n idle => ?_⟩
  have begins : Current s (n,.advance) := fun _ ino opened _ => by
    rw [show s.calls n = .opened ino from opened] at idle
    cases idle
  obtain ⟨ino,calls,there,leads⟩ := step_idle pid s n idle
  have opened : (step pid s (n,.advance)).calls n = .opened ino := by rw [calls,Function.update_self]
  have asks : Current (step pid s (n,.advance)) (n,.advance) := fun _ j other _ => by
    obtain rfl := Phase.opened.inj (opened.symm.trans other)
    exact there
  have soundNext := sound_step pid s (n,.advance) sound
  exact exclusive_of_linked _ (sound_step pid _ _ soundNext)
    (linked_step pid _ _ soundNext (linked_step pid s _ sound linked begins) asks)

/-- A lock on a file that is no longer at the path lets one more call have a lock, too. -/
theorem secure_forced (s : State) (i : ℕ × Event) (sound : Sound s) (secure : Secure pid (step pid s i)) : Current s i := by
  obtain ⟨n,event⟩ := i
  rintro rfl ino opened free
  by_contra stale
  have locked : step pid s (n,.advance) = (s.keep ino (some n)).enter n (.locked ino) := by
    have opened' : s.calls n = .opened ino := opened
    have free' : (s.files ino).holder = none := free
    simp only [step,opened',free']
  have sound' := sound_step pid s (n,.advance) sound
  have older : ino < s.next := sound.old n ino (by rw [show s.calls n = .opened ino from opened]; rfl)
  generalize step pid s (n,.advance) = t at secure locked sound'
  have mine : (t.calls n).holds = some ino := by
    rw [locked,enter_self]
    rfl
  have path : t.path = s.path := by rw [locked]; rfl
  have next : t.next = s.next := by rw [locked]; rfl
  obtain ⟨bound,idle⟩ := sound'.begun
  have newcomer := idle bound (le_refl bound)
  have apart : n ≠ bound := by
    rintro rfl
    rw [newcomer] at mine
    cases mine
  obtain ⟨exclusive,more⟩ := secure
  obtain ⟨j,leads,granted | ⟨-,m,kept,began,calls⟩⟩ := acquired_cases pid t bound newcomer
  · have both := more bound newcomer n bound (by rw [granted,Function.update_of_ne apart,mine]; simp)
      (by rw [granted,Function.update_self]; simp [Phase.holds])
    exact apart both
  · have keeps := ((sound_step pid t (bound,.advance) sound').owner j m).mp kept
    have older : m ≠ bound := by
      rintro rfl
      rw [began] at keeps
      cases keeps
    rw [calls,Function.update_of_ne older] at keeps
    have there : t.path = some j := by
      rcases leads with there | ⟨-,rfl⟩
      · exact there
      · exact absurd (sound'.old m _ (ino_of_keeps _ _ keeps)) (lt_irrefl _)
    rcases holds_or_removed _ j keeps with holds | removed
    · obtain rfl := exclusive m n (by rw [holds]; simp) (by rw [mine]; simp)
      obtain rfl := Option.some_inj.mp (holds.symm.trans mine)
      exact stale (path ▸ there)
    · exact sound'.gone m j removed there

/-- In every run at most one call has the lock at a time, also after one more call, if and only if no
lock is granted on a file that is no longer the one at the path. -/
theorem secure_iff (content : Option (List UInt8)) (steps : List (ℕ × Event)) :
    Always (step pid) (Secure pid) (start content) steps ↔ Along (step pid) Current (start content) steps :=
  always_iff_along_forced (step pid) Current (Secure pid) Linked Sound (sound_step pid)
    (fun s i sound linked current => linked_step pid s i sound linked current) (secure_of_linked pid)
    (secure_forced pid) (start content) steps (sound_start content) (fun n ino held => by cases held)

end Guards

/-! What `read_pid` finds. -/

theorem parsePid_nil : parsePid [] = none := by
  have empty : readToString ⟨#[]⟩ = .ok "" := Pal.Security.readToString_text ""
  rw [parsePid,empty]
  rfl

theorem digit_dark (c : Char) (digit : c.isDigit = true) : isWhitespace c = false ∧ c ≠ '+' := by
  simp only [Char.isDigit,Bool.and_eq_true,decide_eq_true_eq] at digit
  have low : 48 ≤ c.toNat := UInt32.le_iff_toNat_le.mp digit.1
  have high : c.toNat ≤ 57 := UInt32.le_iff_toNat_le.mp digit.2
  constructor
  · simp only [isWhitespace,Bool.or_eq_false_iff,Bool.and_eq_false_iff,decide_eq_false_iff_not]
    omega
  · rintro rfl
    exact absurd low (by decide)

theorem parsePid_pidText (p : UInt32) : parsePid (pidText p) = some p := by
  have bytes : (⟨(pidText p).toArray⟩ : ByteArray) = p.toNat.repr.toUTF8 := by simp [pidText]
  have digits : p.toNat.repr.toList = Nat.toDigits 10 p.toNat := by rw [Nat.repr,String.toList_ofList]
  have dark (c : Char) (member : c ∈ Nat.toDigits 10 p.toNat) :=
    digit_dark c (Nat.isDigit_of_mem_toDigits (by decide) (by decide) member)
  have tight : trim (Nat.toDigits 10 p.toNat) = Nat.toDigits 10 p.toNat :=
    trim_tight _ (fun c first => (dark c (List.mem_of_mem_head? first)).1)
      (fun c last => (dark c (List.mem_of_mem_getLast? last)).1)
  have plain : ¬(Nat.toDigits 10 p.toNat).head? = some '+' := fun plus =>
    (dark '+' (List.mem_of_mem_head? plus)).2 rfl
  rw [parsePid,bytes,Pal.Security.readToString_text]
  simp only [digits,tight,parseU32,if_neg plain,if_neg Nat.toDigits_ne_nil,readDigits_toDigits,Option.bind_some]
  rw [if_pos p.toNat_lt,UInt32.ofNat_toNat]

/-- A file that its lock's call has just emptied is empty. -/
def Blank (s : State) : Prop := ∀ n ino, s.calls n = .cleared ino → (s.files ino).content = []

theorem fill_other (s : State) (ino i : ℕ) (content : List UInt8) (other : i ≠ ino) : (s.fill ino content).files i = s.files i :=
  Function.update_of_ne other ..

theorem blank_fill (s : State) (blank : Blank s) (ino : ℕ) : Blank (s.fill ino []) := by
  intro n i cleared
  by_cases same : i = ino
  · subst same
    exact fill_content ..
  · rw [fill_other s ino i [] same]
    exact blank n i cleared

theorem blank_enter (s : State) (blank : Blank s) (n : ℕ) (phase : Phase)
    (cleared : ∀ ino, phase = .cleared ino → (s.files ino).content = []) : Blank (s.enter n phase) := by
  intro m i was
  by_cases self : m = n
  · subst self
    rw [enter_self] at was
    exact cleared i was
  · rw [enter_other _ n _ m self] at was
    exact blank m i was

theorem blank_moves (s t : State) (n : ℕ) (event : Event) (sound : Sound s) (blank : Blank s) (moves : Moves s n event t) :
    Blank t := by
  cases moves with
  | stays started same => exact same ▸ blank
  | opens ino asked was there now => exact now ▸ blank_enter _ (blank_fill s blank ino) n _ (by simp)
  | makes asked was bare now =>
    refine now ▸ blank_enter s.make (fun m i cleared => ?_) n _ (by simp)
    have older : i ≠ s.next := by
      have below := sound.old m i (by rw [show s.calls m = .cleared i from cleared]; rfl)
      omega
    rw [make_other s i older]
    exact blank m i cleared
  | locks ino asked was free now =>
    refine now ▸ blank_enter (s.keep ino (some n)) (fun m i cleared => ?_) n _ (by simp)
    rw [keep_content]
    exact blank m i cleared
  | fails ino m was kept now => exact now ▸ blank_enter s blank n _ (by simp)
  | clears ino was now =>
    refine now ▸ blank_enter _ (blank_fill s blank ino) n _ (fun i same => ?_)
    obtain rfl := Phase.cleared.inj same
    exact fill_content ..
  | writes ino content was now =>
    rw [now]
    intro m i cleared
    by_cases self : m = n
    · subst self
      rw [enter_self] at cleared
      cases cleared
    · rw [enter_other _ n _ m self,fill_calls] at cleared
      have other : i ≠ ino := by
        rintro rfl
        exact self (holds_one s sound m n i (by rw [cleared]; rfl) (by rw [was]; rfl))
      rw [enter_files,fill_other s ino i content other]
      exact blank m i cleared
  | reports ino was now => exact now ▸ blank_enter s blank n _ (by simp)
  | removes ino was now => exact now ▸ blank_enter { s with path := none } blank n _ (by simp)
  | closes ino kept now =>
    refine now ▸ blank_enter (s.keep ino none) (fun m i cleared => ?_) n _ (by simp)
    rw [keep_content]
    exact blank m i cleared
  | leaves ino had free now => exact now ▸ blank_enter s blank n _ (by simp)

/-- A step with which a call begins. -/
def Begins (s : State) (i : ℕ × Event) : Prop := i.2 = .advance ∧ s.calls i.1 = .idle

instance (s : State) (i : ℕ × Event) : Decidable (Begins s i) := inferInstanceAs (Decidable (_ ∧ _))

/-- A guard with its file at the path, holding its number until another call has begun. -/
structure Stands (p : UInt32) (n ino : ℕ) (begun : Prop) (s : State) : Prop where
  sound : Sound s
  linked : Linked s
  guard : s.calls n = .guarded ino
  content : (begun → (s.files ino).content = []) ∧ (¬begun → (s.files ino).content = pidText p)

theorem stands_moves (p : UInt32) (s t : State) (n ino m : ℕ) (event : Event) (begun : Prop) (stands : Stands p n ino begun s)
    (other : m ≠ n) (current : Current s (m,event)) (moves : Moves s m event t) :
    Stands p n ino (begun ∨ Begins s (m,event)) t := by
  have sound := sound_moves s t m event stands.sound moves
  have linked := linked_moves s t m event stands.sound stands.linked current moves
  have there : s.path = some ino := stands.linked n ino (by rw [stands.guard]; rfl)
  have alone (i : ℕ) (holds : (s.calls m).holds = some i) : i ≠ ino := by
    rintro rfl
    exact other (holds_one s stands.sound m n i holds (by rw [stands.guard]; rfl))
  have later (phase : s.calls m ≠ .idle) : (begun ∨ Begins s (m,event)) ↔ begun :=
    or_iff_left (fun begins => phase begins.2)
  have kept (files : (t.files ino).content = (s.files ino).content) (calls : t.calls n = s.calls n)
      (same : (begun ∨ Begins s (m,event)) ↔ begun) : Stands p n ino (begun ∨ Begins s (m,event)) t := by
    refine ⟨sound,linked,calls.trans stands.guard,?_⟩
    rw [files,same]
    exact stands.content
  cases moves with
  | stays started same =>
    exact kept (by rw [same]) (by rw [same]) (or_iff_left (fun begins => started begins.1 begins.2))
  | opens i asked was path now =>
    obtain rfl := Option.some_inj.mp (there.symm.trans path)
    refine ⟨sound,linked,?_,fun _ => ?_,fun never => absurd (.inr ⟨asked,was⟩) never⟩
    · rw [now,enter_other _ m _ n other.symm]
      exact stands.guard
    · rw [now,enter_files]
      exact fill_content ..
  | makes asked was bare now =>
    rw [there] at bare
    cases bare
  | locks i asked was free now =>
    refine kept ?_ ?_ (later (by rw [was]; simp))
    · rw [now,enter_files,keep_content]
    · rw [now,enter_other _ m _ n other.symm,keep_calls]
  | fails i k was keeper now =>
    exact kept (by rw [now,enter_files]) (by rw [now,enter_other _ m _ n other.symm]) (later (by rw [was]; simp))
  | clears i was now =>
    have apart := alone i (by rw [was]; rfl)
    refine kept ?_ ?_ (later (by rw [was]; simp))
    · rw [now,enter_files,fill_other s i ino _ apart.symm]
    · rw [now,enter_other _ m _ n other.symm,fill_calls]
  | writes i content was now =>
    have apart := alone i (by rw [was]; rfl)
    refine kept ?_ ?_ (later (by rw [was]; simp))
    · rw [now,enter_files,fill_other s i ino _ apart.symm]
    · rw [now,enter_other _ m _ n other.symm,fill_calls]
  | reports i was now =>
    exact kept (by rw [now,enter_files]) (by rw [now,enter_other _ m _ n other.symm]) (later (by rw [was]; simp))
  | removes i was now =>
    have mine : (s.calls m).holds = some i := by rw [was]; rfl
    have same := stands.linked m i mine
    exact absurd (Option.some_inj.mp (same.symm.trans there)) (alone i mine)
  | closes i keeper now =>
    refine kept ?_ ?_ (later (fun idle => by rw [idle] at keeper; cases keeper))
    · rw [now,enter_files,keep_content]
    · rw [now,enter_other _ m _ n other.symm,keep_calls]
  | leaves i had free now =>
    refine kept (by rw [now,enter_files]) (by rw [now,enter_other _ m _ n other.symm])
      (later (fun idle => by rw [idle] at had; cases had))

section Reports
variable (pid : ℕ → UInt32)

theorem stands_run (p : UInt32) (s : State) (n ino : ℕ) (begun : Prop) (later : List (ℕ × Event))
    (stands : Stands p n ino begun s) (silent : ∀ i ∈ later, i.1 ≠ n) (current : Along (step pid) Current s later) :
    Stands p n ino (begun ∨ Occurred (step pid) Begins s later) (run (step pid) s later) := by
  induction later generalizing s begun with
  | nil =>
    simp only [Occurred,or_false]
    exact stands
  | cons i rest ih =>
    have next := stands_moves p s _ n ino i.1 i.2 begun stands (silent i List.mem_cons_self) current.1 (step_moves pid s i)
    have whole := ih (step pid s i) _ next (fun j member => silent j (List.mem_cons_of_mem i member)) current.2
    rw [or_assoc] at whole
    exact whole

/-- While a guard stands, its number is found at the path until another call begins; from then on nothing is
found there, and a call that is refused reports the number 0. -/
theorem reports_of_guard (content : Option (List UInt8)) (before later : List (ℕ × Event)) (n ino : ℕ)
    (cleared : (run (step pid) (start content) before).calls n = .cleared ino)
    (current : Along (step pid) Current (start content) (before ++ (n,.advance) :: later))
    (silent : ∀ i ∈ later, i.1 ≠ n) :
    let written := run (step pid) (start content) (before ++ [(n,.advance)])
    let s := run (step pid) written later
    readPid s = (if Occurred (step pid) Begins written later then none else some (pid n)) ∧
      ∀ m i, s.calls m = .busy i → (step pid s (m,.advance)).calls m =
        .refused (if Occurred (step pid) Begins written later then 0 else pid n) := by
  intro written s
  obtain ⟨along,now,rest⟩ := (along_append (step pid) Current (start content) before _).mp current
  have first : written = step pid (run (step pid) (start content) before) (n,.advance) := run_append ..
  rw [← first] at rest
  have held : (Sound (run (step pid) (start content) before) ∧ Linked (run (step pid) (start content) before)) ∧
      Blank (run (step pid) (start content) before) := by
    refine run_invariant (step pid) Current (fun s => (Sound s ∧ Linked s) ∧ Blank s) (fun s i kept meets => ?_)
      (start content) before ⟨⟨sound_start content,fun m i held => by cases held⟩,fun m i was => by cases was⟩ along
    obtain ⟨⟨sound,linked⟩,blank⟩ := kept
    exact ⟨⟨sound_step pid s i sound,linked_step pid s i sound linked meets⟩,
      blank_moves s _ i.1 i.2 sound blank (step_moves pid s i)⟩
  generalize run (step pid) (start content) before = t at cleared now first held
  obtain ⟨⟨sound,linked⟩,blank⟩ := held
  have wrote : written = (t.fill ino (pidText (pid n))).enter n (.guarded ino) := by
    rw [first]
    simp only [step,cleared,blank n ino cleared,List.drop_nil,List.append_nil]
  have stands : Stands (pid n) n ino False written := by
    refine ⟨first ▸ sound_step pid t _ sound,first ▸ linked_step pid t _ sound linked now,?_,fun never => never.elim,fun _ => ?_⟩
    · rw [wrote,enter_self]
    · rw [wrote,enter_files,fill_content]
  have after := stands_run pid (pid n) written n ino False later stands silent rest
  rw [false_or] at after
  have there : s.path = some ino := after.linked n ino (by rw [after.guard]; rfl)
  have found : readPid s = if Occurred (step pid) Begins written later then none else some (pid n) := by
    rw [readPid,there,Option.bind_some]
    by_cases begun : Occurred (step pid) Begins written later
    · rw [after.content.1 begun,if_pos begun,parsePid_nil]
    · rw [after.content.2 begun,if_neg begun,parsePid_pidText]
  refine ⟨found,fun m i busy => ?_⟩
  simp only [step,busy]
  rw [enter_self,found]
  split_ifs <;> rfl

/-- A second daemon is refused by a first one whose number it has just removed. -/
theorem reports_of_first :
    let s := run (step (fun _ => 7)) (start none) ([(0,.advance),(0,.advance),(0,.advance),(0,.advance)] ++
      [(1,.advance),(1,.advance)])
    readPid s = none ∧ (step (fun _ => 7) s (1,.advance)).calls 1 = .refused 0 := by
  have reported := reports_of_guard (fun _ => 7) none [(0,.advance),(0,.advance),(0,.advance)]
    [(1,.advance),(1,.advance)] 0 1 rfl
    ⟨fun _ _ opened => (by cases opened),fun _ _ opened _ => (by cases opened; rfl),fun _ _ opened => (by cases opened),
      fun _ _ opened => (by cases opened),fun _ _ opened => (by cases opened),
      fun _ _ opened _ => (by cases opened; rfl),trivial⟩ (by decide)
  exact ⟨reported.1.trans (if_pos (by decide)),(reported.2 1 1 rfl).trans (congrArg Phase.refused (if_pos (by decide)))⟩

end Reports

end ClawKernel.Pal.Lockfile
