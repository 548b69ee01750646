import ClawKernel.Lib.Calendar
import ClawKernel.Tools.Audit

/-! The times of audit records: the two loops that take a number of seconds apart, with every
access to the table of month lengths, against the calendar.
-/
namespace ClawKernel.Tools.Timestamps
open Lib.Calendar
open Audit (isLeapYear)

/-- `DAYS_IN_MONTH` -/
def daysInMonthTable : List Nat := [31,28,31,30,31,30,31,31,30,31,30,31]

/-- `days_in_month`, which panics where the index is out of range. -/
def daysInMonth (year month : Nat) : Option Nat :=
  if month = 2 ∧ isLeapYear year then some 29
  else
    match month with
    | 0 => none
    | index + 1 => daysInMonthTable[index]?

def daysInYear (year : Nat) : Nat := if isLeapYear year then 366 else 365

theorem daysInYear_pos (year : Nat) : 365 ≤ daysInYear year := by
  unfold daysInYear
  split <;> decide

/-- The first loop. Each turn takes a whole year from the days. -/
def yearLoop (days year : Nat) : Nat × Nat :=
  if days < daysInYear year then (year,days) else yearLoop (days - daysInYear year) (year + 1)
  termination_by days
  decreasing_by
    have := daysInYear_pos year
    omega

/-- The second loop. -/
def monthLoop (year days month : Nat) : Option (Nat × Nat) :=
  if month ≤ 12 then
    (daysInMonth year month).bind (fun dim =>
      if days < dim then some (month,days) else monthLoop year (days - dim) (month + 1))
  else some (month,days)
  termination_by 13 - month

structure DateTime where
  year : Nat
  month : Nat
  day : Nat
  hour : Nat
  minute : Nat
  second : Nat
  deriving DecidableEq, Repr

def unixToUtcDatetime (secs : Nat) : Option DateTime :=
  let minutes := secs / 60
  let hours := minutes / 60
  let days := hours / 24
  let (year,ofYear) := yearLoop days 1970
  (monthLoop year ofYear 1).map (fun (month,ofMonth) =>
    ⟨year,month,ofMonth + 1,hours % 24,minutes % 60,secs % 60⟩)

def DateTime.date (t : DateTime) : Date := ⟨t.year,t.month,t.day⟩

/-- A date with a time of the day. -/
structure DateTime.Valid (t : DateTime) : Prop where
  date : t.date.Valid
  hour : t.hour < 24
  minute : t.minute < 60
  second : t.second < 60

def epoch : Date := ⟨1970,1,1⟩

/-- The seconds since the epoch. -/
def DateTime.seconds (t : DateTime) : Nat :=
  (((t.date.number - epoch.number) * 24 + t.hour) * 60 + t.minute) * 60 + t.second

theorem leap_iff (year : Nat) : isLeapYear year = true ↔ Leap year := by
  simp [isLeapYear,Leap]

theorem daysInYear_eq (year : Nat) : daysInYear year = yearLength year := by
  unfold daysInYear yearLength
  simp only [leap_iff]

theorem table_eq : ∀ index < 12, daysInMonthTable[index]? =
    some (if index + 1 = 2 then 28 else if index + 1 ∈ [4,6,9,11] then 30 else 31) := by
  decide

/-- The table has an entry for each month, and these are the lengths of the months. -/
theorem daysInMonth_eq (year month : Nat) (within : 1 ≤ month ∧ month ≤ 12) :
    daysInMonth year month = some (monthLength year month) := by
  obtain ⟨index,rfl⟩ := Nat.exists_eq_add_of_le' within.1
  have entry := table_eq index (by omega)
  unfold daysInMonth monthLength
  simp only [leap_iff]
  by_cases second : index + 1 = 2
  · by_cases leap : Leap year
    · rw [if_pos ⟨second,leap⟩,if_pos second,if_pos leap]
    · rw [if_neg (fun both => leap both.2),if_pos second,if_neg leap]
      rw [if_pos second] at entry
      exact entry
  · rw [if_neg (fun both => second both.1),if_neg second]
    rw [if_neg second] at entry
    exact entry

/-- The years that are taken away are those that have passed. -/
theorem yearLoop_spec (days year : Nat) :
    (yearLoop days year).2 < yearLength (yearLoop days year).1 ∧
      daysBeforeYear (yearLoop days year).1 + (yearLoop days year).2 = daysBeforeYear year + days ∧
      year ≤ (yearLoop days year).1 ∧ (yearLoop days year).1 ≤ year + days := by
  fun_induction yearLoop with
  | case1 days year inside =>
    rw [daysInYear_eq] at inside
    exact ⟨inside,rfl,Nat.le_refl _,Nat.le_add_right _ _⟩
  | case2 days year whole ih =>
    obtain ⟨inside,counted,later,bound⟩ := ih
    have long := daysInYear_pos year
    refine ⟨inside,?_,by omega,by omega⟩
    rw [counted,daysBeforeYear,← daysInYear_eq]
    omega

/-- The months that are taken away are those that have passed, and the loop ends in one of the twelve. -/
theorem monthLoop_spec (year days month : Nat) (counted : 1 ≤ month) (within : month ≤ 12)
    (left : daysBeforeMonth year month + days < yearLength year) :
    ∃ last rest, monthLoop year days month = some (last,rest) ∧ 1 ≤ last ∧ last ≤ 12 ∧ rest < monthLength year last ∧
      daysBeforeMonth year last + rest = daysBeforeMonth year month + days := by
  induction remaining : 12 - month generalizing days month with
  | zero =>
    obtain rfl : month = 12 := by omega
    have whole := daysBeforeMonth_year year
    rw [daysBeforeMonth_succ year 12 counted] at whole
    have short : days < monthLength year 12 := by omega
    refine ⟨12,days,?_,counted,within,short,rfl⟩
    rw [monthLoop,if_pos within,daysInMonth_eq year 12 ⟨counted,within⟩,Option.bind_some,if_pos short]
  | succ n ih =>
    rw [monthLoop,if_pos within,daysInMonth_eq year month ⟨counted,within⟩,Option.bind_some]
    by_cases short : days < monthLength year month
    · rw [if_pos short]
      exact ⟨month,days,rfl,counted,within,short,rfl⟩
    · rw [if_neg short]
      have next := daysBeforeMonth_succ year month counted
      obtain ⟨last,rest,ended,low,high,inside,same⟩ :=
        ih (days - monthLength year month) (month + 1) (by omega) (by omega) (by omega) (by omega)
      exact ⟨last,rest,ended,low,high,inside,by omega⟩

theorem epoch_valid : epoch.Valid := ⟨by decide,by decide⟩

/-- The loops end, without an access beyond the table, at the date that many days after the epoch. -/
theorem unixToUtcDatetime_date (secs : Nat) :
    ∃ t, unixToUtcDatetime secs = some t ∧ t.date.Valid ∧ t.date.number = epoch.number + secs / 60 / 60 / 24 ∧
      t.hour = secs / 60 / 60 % 24 ∧ t.minute = secs / 60 % 60 ∧ t.second = secs % 60 ∧
      t.year ≤ 1970 + secs / 60 / 60 / 24 := by
  obtain ⟨inYear,counted,later,bound⟩ := yearLoop_spec (secs / 60 / 60 / 24) 1970
  unfold unixToUtcDatetime
  simp only
  generalize yearLoop (secs / 60 / 60 / 24) 1970 = found at inYear counted later bound ⊢
  obtain ⟨year,ofYear⟩ := found
  obtain ⟨month,ofMonth,ended,low,high,inside,same⟩ :=
    monthLoop_spec year ofYear 1 (Nat.le_refl 1) (by decide) (by simpa [daysBeforeMonth] using inYear)
  refine ⟨⟨year,month,ofMonth + 1,secs / 60 / 60 % 24,secs / 60 % 60,secs % 60⟩,by rw [ended,Option.map_some],
    ⟨⟨low,high⟩,Nat.le_add_left 1 ofMonth,inside⟩,?_,rfl,rfl,rfl,bound⟩
  have first (y : Nat) : daysBeforeMonth y 1 = 0 := rfl
  rw [first,Nat.zero_add] at same
  simp only [DateTime.date,epoch,Date.number,first] at counted ⊢
  omega

/-- For every number of seconds the result is the date and the time of that instant: a date of the calendar, the one
that comes as many days after the epoch, and a time of the day that together count the same seconds. -/
theorem unixToUtcDatetime_exact (secs : UInt64) :
    ∃ t, unixToUtcDatetime secs.toNat = some t ∧ t.Valid ∧ t.date = Date.next^[secs.toNat / 86400] epoch ∧
      t.seconds = secs.toNat ∧ t.year < 2 ^ 64 := by
  obtain ⟨t,found,valid,number,hour,minute,second,bound⟩ := unixToUtcDatetime_date secs.toNat
  have small := secs.toNat_lt
  have days : secs.toNat / 60 / 60 / 24 = secs.toNat / 86400 := by omega
  rw [days] at number bound
  refine ⟨t,found,⟨valid,by omega,by omega,by omega⟩,eq_iterate_next epoch t.date epoch_valid valid _ number,?_,by omega⟩
  unfold DateTime.seconds
  rw [number,Nat.add_sub_cancel_left,hour,minute,second]
  omega

/-! The same loops with a bound on their turns, as the lines of the log have them. -/

theorem yearFrom_eq (fuel days year : Nat) (enough : days ≤ fuel) : Audit.yearFrom fuel days year = yearLoop days year := by
  induction fuel generalizing days year with
  | zero =>
    obtain rfl := Nat.le_zero.mp enough
    rw [yearLoop,if_pos (Nat.lt_of_lt_of_le (by decide) (daysInYear_pos year)),Audit.yearFrom]
  | succ fuel ih =>
    have long := daysInYear_pos year
    rw [yearLoop,← ih (days - daysInYear year) (year + 1) (by omega)]
    rfl

theorem daysInMonth_table (year month dim : Nat) (read : daysInMonth year month = some dim) :
    Audit.daysInMonth year month = dim := by
  unfold daysInMonth at read
  unfold Audit.daysInMonth
  split at read
  · rename_i leap
    rw [if_pos leap]
    exact Option.some_inj.mp read
  · rename_i plain
    rw [if_neg plain]
    cases month with
    | zero => cases read
    | succ index => exact (congrArg (Option.getD · 0) read :)

theorem monthFrom_eq (fuel year days month : Nat) (enough : 13 ≤ month + fuel) (counted : 1 ≤ month) (found : Nat × Nat)
    (ended : monthLoop year days month = some found) (within : found.1 ≤ 12) :
    Audit.monthFrom year fuel days month = found := by
  induction fuel generalizing days month with
  | zero =>
    rw [monthLoop,if_neg (by omega)] at ended
    exact Option.some_inj.mp ended
  | succ fuel ih =>
    rw [monthLoop] at ended
    split at ended
    · rename_i inside
      rw [daysInMonth_eq year month ⟨counted,inside⟩,Option.bind_some] at ended
      rw [Audit.monthFrom,daysInMonth_table year month _ (daysInMonth_eq year month ⟨counted,inside⟩)]
      split at ended
      · rename_i short
        rw [if_pos short]
        exact Option.some_inj.mp ended
      · rename_i whole
        rw [if_neg whole]
        exact ih _ _ (by omega) (by omega) ended
    · rename_i past
      rw [← Option.some_inj.mp ended] at within
      exact absurd within past

/-- The text of a record's time is that of its date. -/
theorem formatTimestamp_date (timestampMs : Nat) :
    ∃ t, unixToUtcDatetime (timestampMs / 1000) = some t ∧
      Audit.formatTimestamp timestampMs =
        Audit.padded 4 t.year ++ '-' :: Audit.padded 2 t.month ++ '-' :: Audit.padded 2 t.day ++
          'T' :: Audit.padded 2 t.hour ++ ':' :: Audit.padded 2 t.minute ++ ':' :: Audit.padded 2 t.second ++ ['Z'] := by
  obtain ⟨t,found,valid,-,-,-,-,-⟩ := unixToUtcDatetime_date (timestampMs / 1000)
  refine ⟨t,found,?_⟩
  unfold unixToUtcDatetime at found
  simp only [Option.map_eq_some_iff] at found
  obtain ⟨last,ended,rfl⟩ := found
  unfold Audit.formatTimestamp
  simp only
  rw [yearFrom_eq _ _ _ (Nat.le_refl _),monthFrom_eq 12 _ _ 1 (by decide) (by decide) last ended valid.month.2]

end ClawKernel.Tools.Timestamps
