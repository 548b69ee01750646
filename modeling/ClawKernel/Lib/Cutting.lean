import Mathlib.Data.List.Basic

/-! A stream cut into items from its front, however it comes in chunks. What stands
at the front of a string of symbols stays there when more symbols follow, so that
the items cut from a stream are those cut from its parts, one part after another.
-/
namespace ClawKernel.Lib.Cutting

variable {α τ ε : Type*}

inductive Front (α τ ε : Type*) where
  | short
  | bad (error : ε)
  | item (token : τ) (rest : List α)

structure Cutter (α τ ε : Type*) where
  front : List α → Front α τ ε
  shorter : ∀ {s token rest}, front s = .item token rest → rest.length < s.length
  item_append : ∀ {s token rest} (more : List α), front s = .item token rest →
    front (s ++ more) = .item token (rest ++ more)
  bad_append : ∀ {s e} (more : List α), front s = .bad e → front (s ++ more) = .bad e

/-- The items at the front of a string, what stopped the cutting if something did,
and the symbols that were not cut off. -/
structure Cuts (α τ ε : Type*) where
  items : List τ
  error : Option ε
  left : List α

variable (c : Cutter α τ ε)

def cutUpTo : Nat → List α → Cuts α τ ε
  | 0, s => ⟨[],none,s⟩
  | fuel + 1, s =>
    match c.front s with
    | .short => ⟨[],none,s⟩
    | .bad e => ⟨[],some e,s⟩
    | .item token rest => ⟨token :: (cutUpTo fuel rest).items,(cutUpTo fuel rest).error,(cutUpTo fuel rest).left⟩

def cut (s : List α) : Cuts α τ ε := cutUpTo c (s.length + 1) s

theorem cutUpTo_enough (more fuel : Nat) (s : List α) (enough : s.length < fuel) (also : s.length < more) :
    cutUpTo c fuel s = cutUpTo c more s := by
  induction fuel generalizing more s with
  | zero => omega
  | succ fuel ih =>
    obtain ⟨more,rfl⟩ : ∃ k, more = k + 1 := ⟨more - 1,by omega⟩
    rw [cutUpTo,cutUpTo]
    cases found : c.front s with
    | short => rfl
    | bad e => rfl
    | item token rest =>
      have less := c.shorter found
      simp only [ih more rest (by omega) (by omega)]

theorem cut_short (s : List α) (found : c.front s = .short) : cut c s = ⟨[],none,s⟩ := by
  rw [cut,cutUpTo,found]

theorem cut_bad (s : List α) (e : ε) (found : c.front s = .bad e) : cut c s = ⟨[],some e,s⟩ := by
  rw [cut,cutUpTo,found]

theorem cut_item (s rest : List α) (token : τ) (found : c.front s = .item token rest) :
    cut c s = ⟨token :: (cut c rest).items,(cut c rest).error,(cut c rest).left⟩ := by
  have less := c.shorter found
  rw [cut,cutUpTo,found]
  simp only [cut,cutUpTo_enough c (rest.length + 1) s.length rest less (Nat.lt_succ_self _)]

theorem cut_induct (holds : List α → Prop) (short : ∀ s, c.front s = .short → holds s)
    (bad : ∀ s e, c.front s = .bad e → holds s)
    (item : ∀ s token rest, c.front s = .item token rest → holds rest → holds s) (s : List α) : holds s := by
  induction h : s.length using Nat.strongRecOn generalizing s with
  | ind n ih =>
    cases found : c.front s with
    | short => exact short s found
    | bad e => exact bad s e found
    | item token rest => exact item s token rest found (ih rest.length (h ▸ c.shorter found) rest rfl)

theorem front_left (s : List α) (unstopped : (cut c s).error = none) : c.front (cut c s).left = .short := by
  induction s using cut_induct c with
  | short s found => rw [cut_short c s found]; exact found
  | bad s e found => simp [cut_bad c s e found] at unstopped
  | item s token rest found ih =>
    rw [cut_item c s rest token found] at unstopped ⊢
    exact ih unstopped

/-- What an error stopped stays stopped there. -/
theorem cut_append_bad (s more : List α) (e : ε) (stopped : (cut c s).error = some e) :
    cut c (s ++ more) = ⟨(cut c s).items,some e,(cut c s).left ++ more⟩ := by
  induction s using cut_induct c with
  | short s found => simp [cut_short c s found] at stopped
  | bad s f found =>
    rw [cut_bad c s f found] at stopped ⊢
    rw [cut_bad c _ f (c.bad_append more found),← stopped]
  | item s token rest found ih =>
    rw [cut_item c s rest token found] at stopped ⊢
    rw [cut_item c _ _ token (c.item_append more found),ih stopped]

/-- Otherwise the cutting goes on with what was left. -/
theorem cut_append (s more : List α) (unstopped : (cut c s).error = none) :
    cut c (s ++ more) = ⟨(cut c s).items ++ (cut c ((cut c s).left ++ more)).items,
      (cut c ((cut c s).left ++ more)).error,(cut c ((cut c s).left ++ more)).left⟩ := by
  induction s using cut_induct c with
  | short s found => rw [cut_short c s found]; rfl
  | bad s e found => simp [cut_bad c s e found] at unstopped
  | item s token rest found ih =>
    rw [cut_item c s rest token found] at unstopped ⊢
    rw [cut_item c _ _ token (c.item_append more found),ih unstopped]
    rfl

/-- A reader that keeps what it could not cut yet and, where a chunk brings an error,
hands on nothing of that chunk. -/
structure Reader (α τ : Type*) where
  kept : List α
  handed : List τ
  stopped : Bool

def Reader.fresh : Reader α τ := ⟨[],[],false⟩

def feed (r : Reader α τ) (chunk : List α) : Reader α τ :=
  if r.stopped then r
  else
    match (cut c (r.kept ++ chunk)).error with
    | none => ⟨(cut c (r.kept ++ chunk)).left,r.handed ++ (cut c (r.kept ++ chunk)).items,false⟩
    | some _ => ⟨(cut c (r.kept ++ chunk)).left,r.handed,true⟩

def feedAll (r : Reader α τ) (chunks : List (List α)) : Reader α τ := chunks.foldl (feed c) r

/-- No chunk brings both the end of an item and an error. -/
def Apart : List α → List (List α) → Prop
  | _, [] => True
  | kept, chunk :: later =>
    match (cut c (kept ++ chunk)).error with
    | none => Apart (cut c (kept ++ chunk)).left later
    | some _ => (cut c (kept ++ chunk)).items = []

theorem feedAll_stopped (r : Reader α τ) (chunks : List (List α)) (stopped : r.stopped = true) :
    feedAll c r chunks = r := by
  induction chunks with
  | nil => rfl
  | cons chunk later ih =>
    rw [feedAll,List.foldl_cons,feed,if_pos stopped]
    exact ih

/-- What a reader has handed on, against the items of all it was given. -/
theorem feedAll_handed (kept : List α) (handed : List τ) (chunks : List (List α))
    (short : c.front kept = .short) :
    (feedAll c ⟨kept,handed,false⟩ chunks).handed = handed ++ (cut c (kept ++ chunks.flatten)).items ↔
      Apart c kept chunks := by
  induction chunks generalizing kept handed with
  | nil => simp [feedAll,Apart,cut_short c kept short]
  | cons chunk later ih =>
    rw [feedAll,List.foldl_cons,List.flatten_cons,← List.append_assoc,Apart]
    cases stop : (cut c (kept ++ chunk)).error with
    | some e =>
      have stands : feed c ⟨kept,handed,false⟩ chunk = ⟨(cut c (kept ++ chunk)).left,handed,true⟩ := by
        simp [feed,stop]
      rw [stands,← feedAll,feedAll_stopped c _ later rfl,cut_append_bad c _ later.flatten e stop]
      exact List.self_eq_append_right
    | none =>
      have goes : feed c ⟨kept,handed,false⟩ chunk =
          ⟨(cut c (kept ++ chunk)).left,handed ++ (cut c (kept ++ chunk)).items,false⟩ := by
        simp [feed,stop]
      rw [goes,← feedAll,cut_append c _ later.flatten stop,← List.append_assoc]
      exact ih _ _ (front_left c _ stop)

/-- A reader that meets no error holds what reading everything at once leaves. -/
theorem feedAll_unstopped (kept : List α) (handed : List τ) (chunks : List (List α)) (short : c.front kept = .short)
    (unstopped : (cut c (kept ++ chunks.flatten)).error = none) :
    feedAll c ⟨kept,handed,false⟩ chunks =
      ⟨(cut c (kept ++ chunks.flatten)).left,handed ++ (cut c (kept ++ chunks.flatten)).items,false⟩ := by
  induction chunks generalizing kept handed with
  | nil => simp [feedAll,cut_short c kept short]
  | cons chunk later ih =>
    rw [List.flatten_cons,← List.append_assoc] at unstopped ⊢
    rw [feedAll,List.foldl_cons]
    cases stop : (cut c (kept ++ chunk)).error with
    | some e =>
      rw [cut_append_bad c _ later.flatten e stop] at unstopped
      exact absurd unstopped (Option.some_ne_none e)
    | none =>
      have goes : feed c ⟨kept,handed,false⟩ chunk =
          ⟨(cut c (kept ++ chunk)).left,handed ++ (cut c (kept ++ chunk)).items,false⟩ := by
        simp [feed,stop]
      rw [cut_append c _ later.flatten stop] at unstopped ⊢
      rw [goes,← feedAll,ih _ _ (front_left c _ stop) unstopped,List.append_assoc]

end ClawKernel.Lib.Cutting
