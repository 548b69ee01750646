import Mathlib.Data.List.Sort
import Mathlib.Data.String.Basic
import ClawKernel.Lib.Champions
import ClawKernel.Skills.Manifest

/-! Loading skills: which manifest of a name is resolved from the search directories, and the
index and the full text that are read by it.
-/
namespace ClawKernel.Skills.Loader
open Lib.Champions Lib.Tables
open Skills.Manifest

structure SkillIndexEntry (Path : Type) where
  name : String
  description : String
  tags : List String
  path : Path

/-- The orders in which directories list their entries and a map its values, which can change
from call to call. -/
structure Orders (Path Version : Type) where
  listing : Path → List (Except String Path) → List (Except String Path)
  listed : ∀ dir entries, (listing dir entries).Perm entries
  values : List (SkillManifest Path Version) → List (SkillManifest Path Version)
  iterated : ∀ manifests, (values manifests).Perm manifests

section
variable {Path Version : Type}

/-- What an entry of a directory contributes; entries that are no skills are passed over. -/
def skillAt (host : Host Path Version) : Except String Path → Option (SkillManifest Path Version)
  | .error _ => none
  | .ok path => if host.isDir path then (fromDir host path).toOption else none

def scanDir (host : Host Path Version) (orders : Orders Path Version) (dir : Path) :
    Except (SkillError Path) (List (SkillManifest Path Version)) :=
  match host.readDir dir with
  | .error source => .error (.io dir source)
  | .ok entries => .ok ((orders.listing dir entries).filterMap (skillAt host))

def indexEntry (m : SkillManifest Path Version) : SkillIndexEntry Path := ⟨m.name,m.description,m.tags,m.path⟩

def tagged (tags : List String) (own : List String) : Bool := tags.isEmpty || tags.any (fun tag => own.contains tag)

/-- `load_full` from where it has looked for the manifest. -/
def readSkill (host : Host Path Version) (name : String) (found : Option Path) : Except (SkillError Path) Text :=
  match found with
  | none => .error (.notFound name)
  | some path => (host.readToString (host.join path "SKILL.md")).mapError (.io (host.join path "SKILL.md"))

/-- The valid skills of a directory. One that is not there or cannot be listed has none. -/
def skills (host : Host Path Version) (dir : Path) : List (SkillManifest Path Version) :=
  match host.present dir, host.readDir dir with
  | true, .ok entries => entries.filterMap (skillAt host)
  | _, _ => []

/-- The skills of a directory, in the order in which it lists them. -/
def listedSkills (host : Host Path Version) (orders : Orders Path Version) (dir : Path) :
    List (SkillManifest Path Version) :=
  match host.present dir, host.readDir dir with
  | true, .ok entries => (orders.listing dir entries).filterMap (skillAt host)
  | _, _ => []

/-- Manifests sorted by distinct names are determined by which they are. -/
theorem eq_of_members (first second : List (SkillManifest Path Version))
    (one : (first.map SkillManifest.name).Pairwise (· < ·)) (other : (second.map SkillManifest.name).Pairwise (· < ·))
    (same : ∀ m, m ∈ first ↔ m ∈ second) : first = second := by
  have apart (l : List (SkillManifest Path Version)) (sorted : (l.map SkillManifest.name).Pairwise (· < ·)) : l.Nodup :=
    List.Nodup.of_map SkillManifest.name (sorted.imp (fun less => ne_of_lt less))
  refine List.Perm.eq_of_pairwise ?_ (List.pairwise_map.mp one) (List.pairwise_map.mp other)
    ((List.perm_ext_iff_of_nodup (apart first one) (apart second other)).mpr same)
  exact fun a b _ _ less greater => absurd less (lt_asymm greater)

theorem filter_index (tags : List String) (manifests : List (SkillManifest Path Version)) :
    (manifests.filter (fun m => tagged tags m.tags)).map indexEntry =
      (manifests.map indexEntry).filter (fun entry => tagged tags entry.tags) := by
  rw [List.filter_map]
  rfl

theorem find_index (name : String) (manifests : List (SkillManifest Path Version)) :
    (manifests.find? (fun m => m.name = name)).map SkillManifest.path =
      ((manifests.map indexEntry).find? (fun entry => entry.name = name)).map SkillIndexEntry.path := by
  rw [List.find?_map,Option.map_map]
  rfl

section
variable (host : Host Path Version) (orders : Orders Path Version) (searchDirs : List Path)

theorem listedSkills_perm (dir : Path) : (listedSkills host orders dir).Perm (skills host dir) := by
  unfold listedSkills skills
  cases host.present dir with
  | false => exact List.Perm.refl _
  | true =>
    cases host.readDir dir with
    | error source => exact List.Perm.refl _
    | ok entries => exact (orders.listed dir entries).filterMap (skillAt host)

/-- The skills in the order of the scan, each with the number of its directory. -/
def numbered : List (SkillManifest Path Version × Nat) :=
  searchDirs.zipIdx.flatMap (fun dir => (listedSkills host orders dir.1).map (fun m => (m,dir.2)))

theorem numbered_map : (numbered host orders searchDirs).map Prod.fst = searchDirs.flatMap (listedSkills host orders) := by
  unfold numbered
  rw [List.map_flatMap]
  have each (dir : Path × Nat) :
      ((listedSkills host orders dir.1).map (fun m => (m,dir.2))).map Prod.fst = listedSkills host orders dir.1 := by
    rw [List.map_map]
    exact List.map_id _
  simp only [each]
  rw [← List.flatMap_map Prod.fst (listedSkills host orders),List.zipIdx_map_fst]

theorem mem_numbered (m : SkillManifest Path Version) (place : Nat) :
    (m,place) ∈ numbered host orders searchDirs ↔ ∃ dir, searchDirs[place]? = some dir ∧ m ∈ skills host dir := by
  unfold numbered
  rw [List.mem_flatMap]
  constructor
  · rintro ⟨⟨dir,i⟩,inside,member⟩
    obtain ⟨n,listed,same⟩ := List.mem_map.mp member
    obtain ⟨rfl,rfl⟩ := Prod.mk.inj same
    exact ⟨dir,List.mk_mem_zipIdx_iff_getElem?.mp inside,(listedSkills_perm host orders dir).mem_iff.mp listed⟩
  · rintro ⟨dir,there,member⟩
    exact ⟨(dir,place),List.mk_mem_zipIdx_iff_getElem?.mpr there,
      List.mem_map_of_mem ((listedSkills_perm host orders dir).mem_iff.mpr member)⟩

/-- Later skills are of later directories, or of the same. -/
theorem numbered_sorted : (numbered host orders searchDirs).Pairwise (fun a b => a.2 ≤ b.2) := by
  unfold numbered
  rw [List.pairwise_flatMap]
  constructor
  · intro dir _
    rw [List.pairwise_map]
    exact List.pairwise_of_forall (fun (_ _ : SkillManifest Path Version) => Nat.le_refl dir.2)
  · have increasing : (searchDirs.zipIdx.map Prod.snd).Pairwise (· < ·) := by
      rw [List.zipIdx_map_snd]
      exact List.pairwise_lt_range'
    refine (List.pairwise_map.mp increasing).imp (fun before => ?_)
    intro first inside second outside
    obtain ⟨_,_,rfl⟩ := List.mem_map.mp inside
    obtain ⟨_,_,rfl⟩ := List.mem_map.mp outside
    exact Nat.le_of_lt before

end

variable [LinearOrder Version]

/-- One turn of the loop over the search directories. -/
def resolveDir (host : Host Path Version) (orders : Orders Path Version)
    (seen : Table String (SkillManifest Path Version)) (dir : Path) : Table String (SkillManifest Path Version) :=
  if !host.present dir then seen
  else
    match scanDir host orders dir with
    | .ok manifests => manifests.foldl (enter SkillManifest.version SkillManifest.name) seen
    | .error _ => seen

def resolvePriority (host : Host Path Version) (orders : Orders Path Version) (searchDirs : List Path) :
    List (SkillManifest Path Version) :=
  let seen := searchDirs.foldl (resolveDir host orders) ∅
  (orders.values (seen.entries.map Sigma.snd)).insertionSort (fun a b => a.name ≤ b.name)

def buildIndex (host : Host Path Version) (orders : Orders Path Version) (searchDirs : List Path) :
    List (SkillIndexEntry Path) :=
  (resolvePriority host orders searchDirs).map indexEntry

def buildIndexFiltered (host : Host Path Version) (orders : Orders Path Version) (searchDirs : List Path)
    (tags : List String) : List (SkillIndexEntry Path) :=
  ((resolvePriority host orders searchDirs).filter (fun m => tagged tags m.tags)).map indexEntry

def loadFull (host : Host Path Version) (orders : Orders Path Version) (searchDirs : List Path) (name : String) :
    Except (SkillError Path) Text :=
  readSkill host name (((resolvePriority host orders searchDirs).find? (fun m => m.name = name)).map SkillManifest.path)

/-- It is a skill of a directory, no skill of its name is greater, and no later directory has one of its
name and version. -/
def Wins (host : Host Path Version) (searchDirs : List Path) (m : SkillManifest Path Version) : Prop :=
  ∃ (place : Nat) (dir : Path), searchDirs[place]? = some dir ∧ m ∈ skills host dir ∧
    ∀ (i : Nat) (other : Path), searchDirs[i]? = some other → ∀ n ∈ skills host other, n.name = m.name →
      n.version ≤ m.version ∧ (n.version = m.version → i ≤ place)

/-- One manifest for each name, the one that wins, by name. -/
structure PicksWinners (host : Host Path Version) (searchDirs : List Path) (result : List (SkillManifest Path Version)) :
    Prop where
  sorted : (result.map SkillManifest.name).Pairwise (· < ·)
  complete : ∀ dir ∈ searchDirs, ∀ skill ∈ skills host dir, ∃ m ∈ result, m.name = skill.name
  wins : ∀ m ∈ result, Wins host searchDirs m

/-- No directory has two skills of one name and version. -/
def Distinct (host : Host Path Version) (searchDirs : List Path) : Prop :=
  ∀ dir ∈ searchDirs, (skills host dir).Pairwise (fun m n => ¬(m.name = n.name ∧ m.version = n.version))

variable (host : Host Path Version) (orders : Orders Path Version) (searchDirs : List Path)

theorem resolveDir_eq (seen : Table String (SkillManifest Path Version)) (dir : Path) :
    resolveDir host orders seen dir =
      (listedSkills host orders dir).foldl (enter SkillManifest.version SkillManifest.name) seen := by
  unfold resolveDir listedSkills scanDir
  cases host.present dir with
  | false => rfl
  | true =>
    cases host.readDir dir with
    | error source => rfl
    | ok entries => rfl

theorem foldl_resolveDir (seen : Table String (SkillManifest Path Version)) :
    searchDirs.foldl (resolveDir host orders) seen =
      (searchDirs.flatMap (listedSkills host orders)).foldl (enter SkillManifest.version SkillManifest.name) seen := by
  induction searchDirs generalizing seen with
  | nil => rfl
  | cons dir rest ih => rw [List.foldl_cons,ih,resolveDir_eq,List.flatMap_cons,List.foldl_append]

theorem lastMax_map {α β ν : Type} [LinearOrder ν] (f : α → β) (rank : β → ν) (candidates : List α) (best : β)
    (last : LastMax rank (candidates.map f) best) :
    ∃ before own after, candidates = before ++ own :: after ∧ f own = best ∧
      (∀ other ∈ before, rank (f other) ≤ rank best) ∧ ∀ other ∈ after, rank (f other) < rank best := by
  obtain ⟨before,after,split,least,less⟩ := last
  obtain ⟨first,rest,rfl,rfl,shape⟩ := List.map_eq_append_iff.mp split
  obtain ⟨own,later,rfl,same,rfl⟩ := List.map_eq_cons_iff.mp shape
  exact ⟨first,own,later,rfl,same,fun other member => least _ (List.mem_map_of_mem member),
    fun other member => less _ (List.mem_map_of_mem member)⟩

/-- What the scan keeps under a name wins. -/
theorem kept_wins (m : SkillManifest Path Version)
    (kept : ((searchDirs.foldl (resolveDir host orders) ∅).lookup m.name) = some m) : Wins host searchDirs m := by
  rw [foldl_resolveDir] at kept
  have last := lookup_champion SkillManifest.version SkillManifest.name _ _ _ kept
  rw [← numbered_map,List.filter_map] at last
  obtain ⟨before,⟨own,place⟩,after,split,same,least,less⟩ := lastMax_map _ _ _ _ last
  dsimp only at same
  subst same
  have chosen : (numbered host orders searchDirs).filter (fun n => decide (n.1.name = own.name)) =
      before ++ (own,place) :: after := split
  have sorted := (numbered_sorted host orders searchDirs).filter (fun n => decide (n.1.name = own.name))
  rw [chosen] at sorted
  have inside : (own,place) ∈ numbered host orders searchDirs := by
    have first : (own,place) ∈ before ++ (own,place) :: after := List.mem_append_right before List.mem_cons_self
    rw [← chosen] at first
    exact (List.mem_filter.mp first).1
  obtain ⟨dir,there,member⟩ := (mem_numbered host orders searchDirs own place).mp inside
  refine ⟨place,dir,there,member,fun i other elsewhere n listed named => ?_⟩
  have candidate : (n,i) ∈ before ++ (own,place) :: after := by
    rw [← chosen]
    exact List.mem_filter.mpr ⟨(mem_numbered host orders searchDirs n i).mpr ⟨other,elsewhere,listed⟩,decide_eq_true named⟩
  rcases List.mem_append.mp candidate with first | later
  · exact ⟨least _ first,fun _ => (List.pairwise_append.mp sorted).2.2 _ first _ List.mem_cons_self⟩
  rcases List.mem_cons.mp later with same | later
  · obtain ⟨rfl,rfl⟩ := Prod.mk.inj same
    exact ⟨le_refl _,fun _ => Nat.le_refl _⟩
  · exact ⟨le_of_lt (less _ later),fun same => absurd same (ne_of_lt (less _ later))⟩

/-- Under a name, the table has a manifest of that name or none. -/
theorem kept_named (name : String) (m : SkillManifest Path Version)
    (kept : ((searchDirs.foldl (resolveDir host orders) ∅).lookup name) = some m) : m.name = name := by
  rw [foldl_resolveDir] at kept
  obtain ⟨before,after,split,_⟩ := lookup_champion SkillManifest.version SkillManifest.name _ _ _ kept
  have inside : m ∈ before ++ m :: after := List.mem_append_right before List.mem_cons_self
  rw [← split] at inside
  exact of_decide_eq_true (List.mem_filter.mp inside).2

theorem resolvePriority_perm :
    (resolvePriority host orders searchDirs).Perm
      ((searchDirs.foldl (resolveDir host orders) ∅).entries.map Sigma.snd) :=
  (List.perm_insertionSort _ _).trans (orders.iterated _)

theorem mem_resolvePriority (m : SkillManifest Path Version) :
    m ∈ resolvePriority host orders searchDirs ↔
      (searchDirs.foldl (resolveDir host orders) ∅).lookup m.name = some m := by
  rw [(resolvePriority_perm host orders searchDirs).mem_iff,List.mem_map]
  constructor
  · rintro ⟨⟨name,n⟩,entry,rfl⟩
    have kept := (entry_iff _ _ _).mp entry
    rwa [kept_named host orders searchDirs name n kept]
  · exact fun kept => ⟨⟨m.name,m⟩,(entry_iff _ _ _).mpr kept,rfl⟩

theorem resolvePriority_names :
    ((resolvePriority host orders searchDirs).map SkillManifest.name).Perm
      (searchDirs.foldl (resolveDir host orders) ∅).keys := by
  refine ((resolvePriority_perm host orders searchDirs).map _).trans (List.Perm.of_eq ?_)
  unfold AList.keys List.keys
  rw [List.map_map]
  refine List.map_congr_left (fun entry inside => ?_)
  exact kept_named host orders searchDirs entry.1 entry.2 ((entry_iff _ _ _).mp inside)

theorem resolvePriority_sorted : ((resolvePriority host orders searchDirs).map SkillManifest.name).Pairwise (· < ·) := by
  have ordered : ((resolvePriority host orders searchDirs).map SkillManifest.name).Pairwise (· ≤ ·) := by
    unfold resolvePriority
    rw [List.map_insertionSort (fun a b => a.name ≤ b.name) (· ≤ ·) SkillManifest.name _ (fun _ _ _ _ => Iff.rfl)]
    exact List.SortedLE.pairwise List.sortedLE_insertionSort
  have distinct : ((resolvePriority host orders searchDirs).map SkillManifest.name).Nodup :=
    (resolvePriority_names host orders searchDirs).nodup_iff.mpr (AList.keys_nodup _)
  exact ordered.imp₂ (fun _ _ least apart => lt_of_le_of_ne least apart) distinct

theorem picksWinners : PicksWinners host searchDirs (resolvePriority host orders searchDirs) where
  sorted := resolvePriority_sorted host orders searchDirs
  complete dir member skill inside := by
    have scanned : skill ∈ searchDirs.flatMap (listedSkills host orders) :=
      List.mem_flatMap.mpr ⟨dir,member,(listedSkills_perm host orders dir).mem_iff.mpr inside⟩
    obtain ⟨best,kept⟩ := champion_exists SkillManifest.version SkillManifest.name _ _ scanned
    rw [← foldl_resolveDir] at kept
    have named := kept_named host orders searchDirs _ best kept
    exact ⟨best,(mem_resolvePriority host orders searchDirs best).mpr (named ▸ kept),named⟩
  wins m member := kept_wins host orders searchDirs m ((mem_resolvePriority host orders searchDirs m).mp member)

/-- With no two skills of one name and version in a directory, only one manifest of a name wins. -/
theorem wins_unique (distinct : Distinct host searchDirs) (m n : SkillManifest Path Version)
    (first : Wins host searchDirs m) (second : Wins host searchDirs n) (named : m.name = n.name) : m = n := by
  obtain ⟨place,dir,there,inside,greatest⟩ := first
  obtain ⟨other,elsewhere,here,member,largest⟩ := second
  obtain ⟨above,later⟩ := greatest other elsewhere here n member named.symm
  obtain ⟨below,earlier⟩ := largest place dir there m inside named
  have version := le_antisymm below above
  have same : other = place := Nat.le_antisymm (later version.symm) (earlier version)
  subst same
  obtain rfl := Option.some.inj (there.symm.trans here)
  by_contra different
  have : Std.Symm (fun a b : SkillManifest Path Version => ¬(a.name = b.name ∧ a.version = b.version)) :=
    ⟨fun _ _ apart both => apart ⟨both.1.symm,both.2.symm⟩⟩
  exact List.Pairwise.forall (distinct dir (List.mem_of_getElem? there)) inside member different ⟨named,version⟩

/-- The order in which directories and maps list what they have does not matter. -/
theorem resolvePriority_same (distinct : Distinct host searchDirs) (other : Orders Path Version) :
    resolvePriority host orders searchDirs = resolvePriority host other searchDirs := by
  have included (a b : Orders Path Version) (m : SkillManifest Path Version)
      (member : m ∈ resolvePriority host a searchDirs) : m ∈ resolvePriority host b searchDirs := by
    have wins := (picksWinners host a searchDirs).wins m member
    obtain ⟨place,dir,there,inside,_⟩ := wins
    obtain ⟨n,chosen,named⟩ := (picksWinners host b searchDirs).complete dir (List.mem_of_getElem? there) m inside
    have same := wins_unique host searchDirs distinct n m ((picksWinners host b searchDirs).wins n chosen)
      ((picksWinners host a searchDirs).wins m member) named
    exact same ▸ chosen
  exact eq_of_members _ _ (resolvePriority_sorted host orders searchDirs) (resolvePriority_sorted host other searchDirs)
    (fun m => ⟨included orders other m,included other orders m⟩)

end

def systemWeb : String := "name: web\ndescription: search\nversion: 2.0.0"

def localWeb : String := "name: web\ndescription: search"

/-- Two directories, each with one skill of the same name. A version is a number that keeps the order. -/
def twoDirs : Host String Nat where
  join dir name := dir ++ "/" ++ name
  present path := path ∈ ["system","local","system/web/SKILL.md","local/web/SKILL.md"]
  isDir path := path == "system/web" || path == "local/web"
  readToString path :=
    if path = "system/web/SKILL.md" then .ok ("---\n" ++ systemWeb ++ "\n---\nbody").toList
    else if path = "local/web/SKILL.md" then .ok ("---\n" ++ localWeb ++ "\n---\nbody").toList
    else .error "No such file or directory (os error 2)"
  readDir dir :=
    if dir = "system" ∨ dir = "local" then .ok [.ok (dir ++ "/web"),.ok (dir ++ "/README")]
    else .error "No such file or directory (os error 2)"
  canonicalize _ := none
  fromYaml text :=
    if text = systemWeb.toList then .ok ⟨"web","search",some "2.0.0",none⟩
    else if text = localWeb.toList then .ok ⟨"web","search",none,none⟩
    else .error "missing field"
  parseVersion version :=
    if version = "2.0.0" then .ok 2000000
    else if version = "0.1.0" then .ok 1000
    else .error "unexpected character"

/-- Both are read. -/
example : ["system","local"].map (fun dir => (skills twoDirs dir).map (fun m => (m.name,m.version))) =
    [[("web",2000000)],[("web",1000)]] := by
  decide +kernel

theorem twoDirs_distinct : Distinct twoDirs ["system","local"] := by
  intro dir member
  have one : (skills twoDirs dir).length ≤ 1 := by
    rcases List.mem_cons.mp member with rfl | later
    · decide
    · rw [List.mem_singleton.mp later]
      decide
  generalize skills twoDirs dir = found at one ⊢
  cases found with
  | nil => exact List.Pairwise.nil
  | cons m rest =>
    obtain rfl : rest = [] := List.length_eq_zero_iff.mp (Nat.le_zero.mp (Nat.le_of_succ_le_succ one))
    exact List.pairwise_singleton _ m

end ClawKernel.Skills.Loader
