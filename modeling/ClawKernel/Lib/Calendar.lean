import Mathlib.Logic.Function.Iterate

/-! The proleptic Gregorian calendar: the lengths of its years and months, the days counted up to
a date, and the dates as they follow each other.
-/
namespace ClawKernel.Lib.Calendar

def Leap (year : Nat) : Prop := year % 4 = 0 ∧ year % 100 ≠ 0 ∨ year % 400 = 0

instance (year : Nat) : Decidable (Leap year) := inferInstanceAs (Decidable (_ ∨ _))

def yearLength (year : Nat) : Nat := if Leap year then 366 else 365

def monthLength (year month : Nat) : Nat :=
  if month = 2 then (if Leap year then 29 else 28) else if month ∈ [4,6,9,11] then 30 else 31

structure Date where
  year : Nat
  month : Nat
  day : Nat
  deriving DecidableEq, Repr

structure Date.Valid (d : Date) : Prop where
  month : 1 ≤ d.month ∧ d.month ≤ 12
  day : 1 ≤ d.day ∧ d.day ≤ monthLength d.year d.month

/-- The days from the beginning of the year 0. -/
def daysBeforeYear : Nat → Nat
  | 0 => 0
  | year + 1 => daysBeforeYear year + yearLength year

/-- The days of the year before a month. -/
def daysBeforeMonth (year : Nat) : Nat → Nat
  | 0 | 1 => 0
  | month + 1 => daysBeforeMonth year month + monthLength year month

/-- The days up to a date, with its own. -/
def Date.number (d : Date) : Nat := daysBeforeYear d.year + daysBeforeMonth d.year d.month + d.day

/-- The date of the day after. -/
def Date.next (d : Date) : Date :=
  if d.day < monthLength d.year d.month then { d with day := d.day + 1 }
  else if d.month < 12 then ⟨d.year,d.month + 1,1⟩
  else ⟨d.year + 1,1,1⟩

theorem daysBeforeYear_mono (year later : Nat) (before : year ≤ later) : daysBeforeYear year ≤ daysBeforeYear later := by
  induction before with
  | refl => exact Nat.le_refl _
  | @step later before ih =>
    exact Nat.le_trans ih (Nat.le_add_right _ _)

theorem monthLength_pos (year month : Nat) : 28 ≤ monthLength year month := by
  unfold monthLength
  split
  · split <;> decide
  · split <;> decide

theorem daysBeforeMonth_succ (year month : Nat) (counted : 1 ≤ month) :
    daysBeforeMonth year (month + 1) = daysBeforeMonth year month + monthLength year month := by
  cases month with
  | zero => cases counted
  | succ month => rfl

theorem daysBeforeMonth_mono (year month later : Nat) (counted : 1 ≤ month) (before : month ≤ later) :
    daysBeforeMonth year month ≤ daysBeforeMonth year later := by
  induction before with
  | refl => exact Nat.le_refl _
  | @step later before ih =>
    rw [daysBeforeMonth_succ year later (Nat.le_trans counted before)]
    omega

/-- The months fill the year. -/
theorem daysBeforeMonth_year (year : Nat) : daysBeforeMonth year 13 = yearLength year := by
  unfold yearLength
  by_cases leap : Leap year <;> simp [daysBeforeMonth,monthLength,leap]

/-- A date is in its month, and its month in its year. -/
theorem number_within (d : Date) (valid : d.Valid) :
    daysBeforeYear d.year + daysBeforeMonth d.year d.month < d.number ∧
      d.number ≤ daysBeforeYear d.year + daysBeforeMonth d.year (d.month + 1) ∧
      d.number ≤ daysBeforeYear (d.year + 1) := by
  have inMonth := valid.day
  have counted := valid.month.1
  have inYear := daysBeforeMonth_mono d.year (d.month + 1) 13 (Nat.le_add_left 1 _) (Nat.succ_le_succ valid.month.2)
  rw [daysBeforeMonth_year] at inYear
  rw [daysBeforeYear,daysBeforeMonth_succ d.year d.month counted] at *
  unfold Date.number
  omega

theorem number_lt_year (d other : Date) (valid : d.Valid) (valid' : other.Valid) (before : d.year < other.year) :
    d.number < other.number := by
  have first := (number_within d valid).2.2
  have second := (number_within other valid').1
  have between := daysBeforeYear_mono (d.year + 1) other.year before
  omega

theorem number_lt_month (d other : Date) (valid : d.Valid) (valid' : other.Valid) (same : d.year = other.year)
    (before : d.month < other.month) : d.number < other.number := by
  have first := (number_within d valid).2.1
  have second := (number_within other valid').1
  have between := daysBeforeMonth_mono d.year (d.month + 1) other.month (Nat.le_add_left 1 _) before
  rw [← same] at second
  omega

/-- No two dates are on one day. -/
theorem number_inj (d other : Date) (valid : d.Valid) (valid' : other.Valid) (same : d.number = other.number) :
    d = other := by
  have year : d.year = other.year := by
    rcases Nat.lt_trichotomy d.year other.year with before | same' | after
    · exact absurd same (Nat.ne_of_lt (number_lt_year d other valid valid' before))
    · exact same'
    · exact absurd same.symm (Nat.ne_of_lt (number_lt_year other d valid' valid after))
  have month : d.month = other.month := by
    rcases Nat.lt_trichotomy d.month other.month with before | same' | after
    · exact absurd same (Nat.ne_of_lt (number_lt_month d other valid valid' year before))
    · exact same'
    · exact absurd same.symm (Nat.ne_of_lt (number_lt_month other d valid' valid year.symm after))
  obtain ⟨y,m,n⟩ := d
  obtain ⟨y',m',n'⟩ := other
  obtain rfl : y = y' := year
  obtain rfl : m = m' := month
  obtain rfl : n = n' := Nat.add_left_cancel same
  rfl

theorem next_valid (d : Date) (valid : d.Valid) : d.next.Valid := by
  unfold Date.next
  split
  · rename_i inside
    exact ⟨valid.month,Nat.le_add_left 1 d.day,inside⟩
  split
  · rename_i last more
    exact ⟨⟨Nat.le_add_left 1 d.month,more⟩,Nat.le_refl 1,Nat.le_trans (Nat.le_add_left 1 27) (monthLength_pos _ _)⟩
  · exact ⟨⟨Nat.le_refl 1,Nat.le_add_left 1 11⟩,Nat.le_refl 1,Nat.le_add_left 1 30⟩

theorem next_number (d : Date) (valid : d.Valid) : d.next.number = d.number + 1 := by
  have inMonth := valid.day.2
  have inYear := valid.month.2
  have counted := daysBeforeMonth_succ d.year d.month valid.month.1
  unfold Date.next
  split
  · rfl
  split
  · simp only [Date.number,counted]
    omega
  · have whole : d.day = monthLength d.year d.month := by omega
    have last : d.month = 12 := by omega
    have year := daysBeforeMonth_year d.year
    rw [last] at counted
    rw [counted] at year
    have first : daysBeforeMonth (d.year + 1) 1 = 0 := rfl
    rw [last] at whole
    simp only [Date.number,daysBeforeYear,first,last]
    omega

theorem iterate_next (d : Date) (valid : d.Valid) (n : Nat) :
    (Date.next^[n] d).Valid ∧ (Date.next^[n] d).number = d.number + n := by
  induction n with
  | zero => exact ⟨valid,rfl⟩
  | succ n ih =>
    rw [Function.iterate_succ_apply']
    refine ⟨next_valid _ ih.1,?_⟩
    rw [next_number _ ih.1,ih.2,Nat.add_assoc]

/-- A date that many days after another is what follows it after so many steps. -/
theorem eq_iterate_next (d later : Date) (valid : d.Valid) (valid' : later.Valid) (n : Nat)
    (after : later.number = d.number + n) : later = Date.next^[n] d := by
  obtain ⟨reached,number⟩ := iterate_next d valid n
  exact number_inj later _ valid' reached (after.trans number.symm)

end ClawKernel.Lib.Calendar
