import Mathlib.Data.List.Basic
import Mathlib.Data.List.Induction

/-! A counter of the requests of the current window, started anew by the first request after its
end, and the law of a sliding window. The counter keeps the law exactly for the requests that
find no more of the window before within reach than they leave room for.
-/
namespace ClawKernel.Lib.RateWindow

/-- A request at `now`: the counter after it, if it passes. The counter has the number of requests
and the start of its window. -/
def count (window limit now : Nat) (counter : Nat × Nat) : Option (Nat × Nat) :=
  if now - counter.2 ≥ window then some (1,now)
  else if counter.1 ≥ limit then none
  else some (counter.1 + 1,counter.2)

/-- The requests with whether they pass. -/
def outcomes (check : Nat → Nat × Nat → Option (Nat × Nat)) (counter : Nat × Nat) : List Nat → List (Nat × Bool)
  | [] => []
  | now :: later =>
    match check now counter with
    | none => (now,false) :: outcomes check counter later
    | some next => (now,true) :: outcomes check next later

def passed (done : List (Nat × Bool)) : List Nat := (done.filter Prod.snd).map Prod.fst

/-- The requests within a window's length before `now`. -/
def recent (window now : Nat) (times : List Nat) : List Nat := times.filter (fun t => now < t + window)

/-- No interval of a window's length has more than `limit` requests that pass, and a request is
refused only after `limit` others within a window's length. -/
structure Bounds (window limit : Nat) (done : List (Nat × Bool)) : Prop where
  atMost : ∀ start, ((passed done).filter (fun t => start ≤ t ∧ t < start + window)).length ≤ limit
  onlyFull : ∀ before now after, done = before ++ (now,false) :: after →
    limit ≤ (recent window now (passed before)).length

/-- Requests in the order in which they come, all after the counter was set up. -/
structure Arrivals where
  registered : Nat
  times : List Nat
  ordered : (registered :: times).Pairwise (· ≤ ·)

section Law
variable (window limit : Nat)

/-- Every request that passes comes after fewer than `limit` that do, within a window's length. -/
def Room (times : List Nat) : Prop :=
  ∀ before now after, times = before ++ now :: after → (recent window now before).length < limit

theorem recent_append (now : Nat) (one other : List Nat) :
    recent window now (one ++ other) = recent window now one ++ recent window now other := List.filter_append ..

theorem room_of_atMost (times : List Nat) (ordered : times.Pairwise (· ≤ ·))
    (atMost : ∀ start, (times.filter (fun t => start ≤ t ∧ t < start + window)).length ≤ limit)
    (positive : 0 < window) : Room window limit times := by
  rintro before now after rfl
  have earlier : ∀ t ∈ before, t ≤ now := fun t member => (List.pairwise_append.mp ordered).2.2 t member now (by simp)
  have whole := atMost (now + 1 - window)
  have inside : recent window now before =
      before.filter (fun t => now + 1 - window ≤ t ∧ t < now + 1 - window + window) := by
    refine List.filter_congr (fun t member => ?_)
    have := earlier t member
    simp only [decide_eq_decide]
    omega
  have itself : now + 1 - window ≤ now ∧ now < now + 1 - window + window := by omega
  rw [List.filter_append,List.filter_cons_of_pos (by simpa using itself),List.length_append,List.length_cons,
    ← inside] at whole
  omega

theorem atMost_of_room (times : List Nat) (room : Room window limit times) (start : Nat) :
    (times.filter (fun t => start ≤ t ∧ t < start + window)).length ≤ limit := by
  induction times using List.reverseRecOn with
  | nil => exact Nat.zero_le _
  | append_singleton before now ih =>
    have earlier := ih (fun one t other same => room one t (other ++ [now]) (by rw [same]; simp))
    by_cases inside : start ≤ now ∧ now < start + window
    · have fewer : (before.filter (fun t => start ≤ t ∧ t < start + window)).length ≤
          (recent window now before).length := by
        refine (List.monotone_filter_right before (fun t within => ?_)).length_le
        simp only [decide_eq_true_eq] at within ⊢
        omega
      have := room before now [] rfl
      rw [List.filter_append,List.length_append,List.filter_cons_of_pos (by simpa using inside)]
      simp only [List.filter_nil,List.length_singleton]
      omega
    · rw [List.filter_append,List.length_append,List.filter_cons_of_neg (by simpa using inside)]
      simpa using earlier

/-- The law for the requests still to come, after those in `before` passed. -/
def Law (before : List Nat) : List (Nat × Bool) → Prop
  | [] => True
  | (now,true) :: later => (recent window now before).length < limit ∧ Law (before ++ [now]) later
  | (now,false) :: later => limit ≤ (recent window now before).length ∧ Law before later

def OnlyFull (before : List Nat) (done : List (Nat × Bool)) : Prop :=
  ∀ first now after, done = first ++ (now,false) :: after → limit ≤ (recent window now (before ++ passed first)).length

@[simp] theorem passed_nil : passed [] = [] := rfl

@[simp] theorem passed_true (now : Nat) (later : List (Nat × Bool)) : passed ((now,true) :: later) = now :: passed later :=
  rfl

@[simp] theorem passed_false (now : Nat) (later : List (Nat × Bool)) : passed ((now,false) :: later) = passed later := rfl

theorem onlyFull_true (before : List Nat) (now : Nat) (later : List (Nat × Bool)) :
    OnlyFull window limit before ((now,true) :: later) ↔ OnlyFull window limit (before ++ [now]) later := by
  constructor
  · intro full first t after same
    have := full ((now,true) :: first) t after (by rw [same]; rfl)
    rwa [passed_true,List.append_cons] at this
  · intro full first t after same
    cases first with
    | nil => simp at same
    | cons one first =>
      obtain ⟨rfl,rfl⟩ := List.cons_eq_cons.mp same
      rw [passed_true,List.append_cons]
      exact full first t after rfl

theorem onlyFull_false (before : List Nat) (now : Nat) (later : List (Nat × Bool)) :
    OnlyFull window limit before ((now,false) :: later) ↔
      limit ≤ (recent window now before).length ∧ OnlyFull window limit before later := by
  constructor
  · intro full
    refine ⟨by simpa using full [] now later rfl,fun first t after same => ?_⟩
    exact full ((now,false) :: first) t after (by rw [same]; rfl)
  · rintro ⟨now_full,full⟩ first t after same
    cases first with
    | nil =>
      obtain ⟨one,rfl⟩ := List.cons_eq_cons.mp same
      obtain rfl := (Prod.mk.inj one).1
      simpa using now_full
    | cons one first =>
      obtain ⟨rfl,rfl⟩ := List.cons_eq_cons.mp same
      exact full first t after rfl

theorem room_append (before : List Nat) (now : Nat) (room : Room window limit before) :
    Room window limit (before ++ [now]) ↔ (recent window now before).length < limit := by
  refine ⟨fun all => all before now [] rfl,fun fewer first t after same => ?_⟩
  rcases List.eq_nil_or_concat after with rfl | ⟨init,last,rfl⟩
  · obtain ⟨rfl,one⟩ := List.append_inj' same rfl
    obtain rfl := List.singleton_inj.mp one
    exact fewer
  · rw [List.concat_eq_append,← List.cons_append,← List.append_assoc] at same
    exact room first t init (List.append_inj' same rfl).1

theorem room_of_append (before later : List Nat) (room : Room window limit (before ++ later)) : Room window limit before :=
  fun first now after same => room first now (after ++ later) (by rw [same]; simp)

theorem law_iff (before : List Nat) (done : List (Nat × Bool)) (room : Room window limit before) :
    Law window limit before done ↔ Room window limit (before ++ passed done) ∧ OnlyFull window limit before done := by
  induction done generalizing before with
  | nil =>
    refine iff_of_true trivial ⟨by simpa using room,fun first now after same => ?_⟩
    simp at same
  | cons one later ih =>
    obtain ⟨now,passes⟩ := one
    cases passes with
    | true =>
      rw [Law,onlyFull_true,passed_true,List.append_cons before now (passed later),← room_append window limit before now room]
      constructor
      · rintro ⟨more,law⟩
        exact (ih (before ++ [now]) more).mp law
      · rintro ⟨all,full⟩
        have more := room_of_append window limit _ _ all
        exact ⟨more,(ih (before ++ [now]) more).mpr ⟨all,full⟩⟩
    | false =>
      rw [Law,onlyFull_false,passed_false,ih before room]
      exact and_left_comm

theorem bounds_iff (done : List (Nat × Bool)) (ordered : (passed done).Pairwise (· ≤ ·)) (positive : 0 < window) :
    Bounds window limit done ↔ Law window limit [] done := by
  have start : Room window limit [] := fun before now after same => by simp at same
  rw [law_iff window limit [] done start,List.nil_append]
  constructor
  · rintro ⟨atMost,full⟩
    exact ⟨room_of_atMost window limit _ ordered atMost positive,full⟩
  · rintro ⟨room,full⟩
    exact ⟨atMost_of_room window limit _ room,full⟩

/-- The requests still to come are apart: `before` are the requests of the window before, in
order, and `current` those of the current window, begun at `start`. A request that is among the
first `limit` of its window, or begins one, leaves room for those of the first `limit` of the
window before that came within a window's length. -/
def Spaced (start : Nat) (before current : List Nat) : List Nat → Prop
  | [] => True
  | now :: later =>
    if now - start ≥ window then
      (recent window now (current.take limit)).length < limit ∧ Spaced now current [now] later
    else
      (current.length < limit → current.length + (recent window now (before.take limit)).length < limit) ∧
        Spaced start before (current ++ [now]) later

/-- The counter counts the current window; `done` has passed. -/
structure Tracks (counter : Nat × Nat) (before current done : List Nat) : Prop where
  counted : counter.1 = min current.length limit
  passed : ∃ old, done = old ++ before.take limit ++ current.take limit ∧ ∀ t ∈ old, t + window ≤ counter.2
  earlier : ∀ t ∈ before, t ≤ counter.2
  within : ∀ t ∈ current, counter.2 ≤ t

theorem recent_none (now : Nat) (times : List Nat) (old : ∀ t ∈ times, t + window ≤ now) : recent window now times = [] :=
  List.filter_eq_nil_iff.mpr (fun t member => by have := old t member; simpa using this)

theorem recent_all (now : Nat) (times : List Nat) (young : ∀ t ∈ times, now < t + window) :
    recent window now times = times :=
  List.filter_eq_self.mpr (fun t member => by simpa using young t member)

end Law

section Counting
variable {window limit : Nat} {counter : Nat × Nat} {before current done : List Nat}
  (tracks : Tracks window limit counter before current done) (now : Nat)
include tracks

/-- Within the window, all that passed in it is recent, and nothing from before the last window. -/
theorem recent_within (after : counter.2 ≤ now) (inside : now - counter.2 < window) :
    (recent window now done).length =
      (recent window now (before.take limit)).length + min limit current.length := by
  obtain ⟨old,same,long_ago⟩ := tracks.passed
  have gone := recent_none window now old (fun t member => Nat.le_trans (long_ago t member) after)
  have young : ∀ t ∈ current.take limit, now < t + window := by
    intro t member
    have := tracks.within t (List.mem_of_mem_take member)
    omega
  rw [same,recent_append,recent_append,gone,recent_all window now _ young,List.nil_append,List.length_append,
    List.length_take]

/-- At a window's end, what passed in it is all that can be recent. -/
theorem recent_next (ended : now - counter.2 ≥ window) (positive : 0 < window) :
    recent window now done = recent window now (current.take limit) := by
  obtain ⟨old,same,long_ago⟩ := tracks.passed
  have gone := recent_none window now old (fun t member => by have := long_ago t member; omega)
  have past := recent_none window now (before.take limit) (fun t member => by
    have := tracks.earlier t (List.mem_of_mem_take member)
    omega)
  rw [same,recent_append,recent_append,gone,past]
  rfl

theorem tracks_next (ended : now - counter.2 ≥ window) (positive : 0 < window) (room : 0 < limit)
    (inside : ∀ t ∈ current, t ≤ now) : Tracks window limit (1,now) current [now] (done ++ [now]) where
  counted := by
    rw [List.length_singleton]
    omega
  passed := by
    obtain ⟨old,same,long_ago⟩ := tracks.passed
    refine ⟨old ++ before.take limit,?_,fun t member => ?_⟩
    · rw [same,List.take_of_length_le (show [now].length ≤ limit from room)]
    · rcases List.mem_append.mp member with member | member
      · have := long_ago t member
        omega
      · have := tracks.earlier t (List.mem_of_mem_take member)
        omega
  earlier := inside
  within := by simp

theorem tracks_passes (after : counter.2 ≤ now) (room : current.length < limit) :
    Tracks window limit (counter.1 + 1,counter.2) before (current ++ [now]) (done ++ [now]) where
  counted := by
    rw [tracks.counted,List.length_append,List.length_singleton]
    omega
  passed := by
    obtain ⟨old,same,long_ago⟩ := tracks.passed
    refine ⟨old,?_,long_ago⟩
    have all : (current ++ [now]).take limit = current ++ [now] := List.take_of_length_le (by rw [List.length_append]; exact room)
    rw [same,List.take_of_length_le (show current.length ≤ limit from Nat.le_of_lt room),all,List.append_assoc]
  earlier := tracks.earlier
  within := by
    intro t member
    rcases List.mem_append.mp member with member | member
    · exact tracks.within t member
    · exact (List.mem_singleton.mp member) ▸ after

theorem tracks_refused (after : counter.2 ≤ now) (full : limit ≤ current.length) :
    Tracks window limit counter before (current ++ [now]) done where
  counted := by
    rw [tracks.counted,List.length_append,List.length_singleton]
    omega
  passed := by
    obtain ⟨old,same,long_ago⟩ := tracks.passed
    exact ⟨old,by rw [same,List.take_append_of_le_length full],long_ago⟩
  earlier := tracks.earlier
  within := by
    intro t member
    rcases List.mem_append.mp member with member | member
    · exact tracks.within t member
    · exact (List.mem_singleton.mp member) ▸ after

end Counting

theorem law_outcomes (window limit : Nat) (positive : 0 < window) (times : List Nat) (counter : Nat × Nat)
    (before current done : List Nat) (tracks : Tracks window limit counter before current done)
    (ordered : times.Pairwise (· ≤ ·)) (after : ∀ t ∈ times, counter.2 ≤ t ∧ ∀ earlier ∈ current, earlier ≤ t) :
    Law window limit done (outcomes (count window limit) counter times) ↔
      Spaced window limit counter.2 before current times := by
  induction times generalizing counter before current done with
  | nil => exact iff_of_true trivial trivial
  | cons now later ih =>
    obtain ⟨later_than,rest⟩ := List.pairwise_cons.mp ordered
    obtain ⟨started,past⟩ := after now List.mem_cons_self
    have coming : ∀ t ∈ later, counter.2 ≤ t ∧ ∀ earlier ∈ current ++ [now], earlier ≤ t := by
      intro t member
      refine ⟨(after t (List.mem_cons_of_mem _ member)).1,fun earlier inside => ?_⟩
      rcases List.mem_append.mp inside with inside | inside
      · exact (after t (List.mem_cons_of_mem _ member)).2 earlier inside
      · exact (List.mem_singleton.mp inside) ▸ later_than t member
    rw [outcomes,Spaced,count]
    by_cases ended : now - counter.2 ≥ window
    · simp only [ended,if_true]
      rw [Law,recent_next tracks now ended positive]
      refine and_congr_right (fun fewer => ?_)
      refine ih (1,now) current [now] _ (tracks_next tracks now ended positive (by omega) past) rest (fun t member => ?_)
      exact ⟨later_than t member,by simpa using later_than t member⟩
    · simp only [ended,if_false]
      by_cases full : counter.1 ≥ limit
      · have long : limit ≤ current.length := by
          have := tracks.counted
          omega
        simp only [full,if_true]
        rw [Law,recent_within tracks now started (by omega),
          ih counter before (current ++ [now]) done (tracks_refused tracks now started long) rest coming]
        exact and_congr_left (fun _ => iff_of_true (by omega) (fun room => by omega))
      · have room : current.length < limit := by
          have := tracks.counted
          omega
        simp only [full,if_false]
        rw [Law,recent_within tracks now started (by omega),
          ih _ before (current ++ [now]) _ (tracks_passes tracks now started room) rest coming]
        refine and_congr_left (fun _ => ?_)
        rw [Nat.min_eq_right (Nat.le_of_lt room),Nat.add_comm]
        exact ⟨fun fewer _ => fewer,fun fewer => fewer room⟩

theorem passed_sublist (window limit : Nat) (times : List Nat) (counter : Nat × Nat) :
    (passed (outcomes (count window limit) counter times)).Sublist times := by
  induction times generalizing counter with
  | nil => exact .slnil
  | cons now later ih =>
    rw [outcomes]
    split
    · exact (ih counter).cons now
    · exact (ih _).cons_cons now

/-- The counter keeps the law of the sliding window exactly for requests that are apart. -/
theorem outcomes_bounds (window limit : Nat) (positive : 0 < window) (arrivals : Arrivals) :
    Bounds window limit (outcomes (count window limit) (0,arrivals.registered) arrivals.times) ↔
      Spaced window limit arrivals.registered [] [] arrivals.times := by
  obtain ⟨later,ordered⟩ := List.pairwise_cons.mp arrivals.ordered
  rw [bounds_iff window limit _ (ordered.sublist (passed_sublist ..)) positive]
  refine law_outcomes window limit positive _ (0,arrivals.registered) [] [] [] ?_ ordered (fun t member => ?_)
  · exact ⟨by simp,⟨[],by simp,by simp⟩,by simp,by simp⟩
  · exact ⟨later t member,by simp⟩

end ClawKernel.Lib.RateWindow
