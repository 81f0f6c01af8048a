import Mathlib.Tactic.IntervalCases

namespace LoraRan.Library.Calendar

structure Date where
  year : Int
  month : Nat
  day : Nat
deriving DecidableEq, Repr

def leap (year : Int) : Bool := decide (year % 4 = 0) && (decide (year % 100 ≠ 0) || decide (year % 400 = 0))

def monthLength (year : Int) : Nat → Nat
  | 2 => if leap year then 29 else 28
  | 4 | 6 | 9 | 11 => 30
  | _ => 31

structure Date.Valid (date : Date) : Prop where
  month : 1 ≤ date.month ∧ date.month ≤ 12
  day : 1 ≤ date.day ∧ date.day ≤ monthLength date.year date.month

-- Days from 1970-01-01, counted in years that begin in March and eras of 400 of them.
def marchYear (date : Date) : Int := if date.month ≤ 2 then date.year - 1 else date.year

def marchMonth (month : Nat) : Nat := if month ≤ 2 then month + 9 else month - 3

def daysFromCivil (date : Date) : Int :=
  let era := marchYear date / 400
  let yoe := marchYear date - era * 400
  let doy : Nat := (153 * marchMonth date.month + 2) / 5 + date.day - 1
  era * 146097 + (yoe * 365 + yoe / 4 - yoe / 100 + doy) - 719468

def Date.next (date : Date) : Date :=
  if date.day < monthLength date.year date.month then ⟨date.year,date.month,date.day + 1⟩
  else if date.month < 12 then ⟨date.year,date.month + 1,1⟩
  else ⟨date.year + 1,1,1⟩

theorem leap_iff (year : Int) : leap year = true ↔ year % 4 = 0 ∧ (year % 100 ≠ 0 ∨ year % 400 = 0) := by
  simp [leap]

theorem monthLength_pos (year : Int) (month : Nat) : 1 ≤ monthLength year month := by
  unfold monthLength
  split
  · split <;> decide
  all_goals decide

theorem le_monthLength (year : Int) (month day : Nat) (longest : day ≤ 31) (short : month = 4 ∨ month = 6 ∨ month = 9 ∨ month = 11 → day ≤ 30)
    (february : month = 2 → day ≤ 28 ∨ day = 29 ∧ leap year = true) : day ≤ monthLength year month := by
  unfold monthLength
  split
  case h_1 =>
    rcases february rfl with usual | ⟨last,isLeap⟩
    · split <;> omega
    · rw [if_pos isLeap]
      omega
  case h_2 | h_3 | h_4 | h_5 => exact short (by decide)
  case h_6 => exact longest

theorem monthLength_le (year : Int) (month : Nat) : monthLength year month ≤ 31 := by
  unfold monthLength
  split
  · split <;> decide
  all_goals decide

theorem next_valid (date : Date) (valid : date.Valid) : date.next.Valid := by
  obtain ⟨⟨first,last⟩,begins,ends⟩ := valid
  unfold Date.next
  split
  case isTrue inside => exact ⟨⟨first,last⟩,Nat.le_add_left 1 _,inside⟩
  case isFalse =>
    split
    case isTrue early => exact ⟨⟨Nat.le_add_left 1 _,early⟩,Nat.le_refl 1,monthLength_pos ..⟩
    case isFalse => exact ⟨⟨Nat.le_refl 1,Nat.le_add_left 1 11⟩,Nat.le_refl 1,monthLength_pos ..⟩

theorem daysFromCivil_epoch : daysFromCivil ⟨1970,1,1⟩ = 0 := by decide

theorem day_follows (year : Int) (month day : Nat) (begins : 1 ≤ day) :
    daysFromCivil ⟨year,month,day + 1⟩ = daysFromCivil ⟨year,month,day⟩ + 1 := by
  simp only [daysFromCivil,marchYear]
  omega

-- Only the step from February to March asks whether the year is leap, and there the March year moves with it.
theorem month_follows (year : Int) (month : Nat) (first : 1 ≤ month) (last : month < 12) :
    daysFromCivil ⟨year,month + 1,1⟩ = daysFromCivil ⟨year,month,monthLength year month⟩ + 1 := by
  have rule := leap_iff year
  by_cases february : month = 2
  · subst february
    cases isLeap : leap year with
    | true =>
        obtain ⟨four,hundred⟩ := rule.mp isLeap
        simp only [daysFromCivil,marchYear,marchMonth,monthLength,isLeap,Nat.reduceLeDiff,if_true,if_false,Nat.reduceAdd,Nat.le_refl]
        omega
    | false =>
        have common : ¬ (year % 4 = 0 ∧ (year % 100 ≠ 0 ∨ year % 400 = 0)) := fun holds => by simp [rule.mpr holds] at isLeap
        simp only [daysFromCivil,marchYear,marchMonth,monthLength,isLeap,Nat.reduceLeDiff,if_true,if_false,Nat.reduceAdd,Nat.le_refl]
        simp
        omega
  · interval_cases month
    case «2» => exact absurd rfl february
    all_goals
      simp [daysFromCivil,marchYear,marchMonth,monthLength]
      try omega

theorem year_follows (year : Int) : daysFromCivil ⟨year + 1,1,1⟩ = daysFromCivil ⟨year,12,31⟩ + 1 := by
  simp [daysFromCivil,marchYear,marchMonth]
  omega

-- The number of a date and the number of the day after it are neighbours, so the count is the calendar's own.
theorem daysFromCivil_next (date : Date) (valid : date.Valid) : daysFromCivil date.next = daysFromCivil date + 1 := by
  obtain ⟨year,month,day⟩ := date
  obtain ⟨⟨first,last⟩,begins,ends⟩ := valid
  unfold Date.next
  split
  case isTrue => exact day_follows year month day begins
  case isFalse full =>
    have whole : day = monthLength year month := Nat.le_antisymm ends (Nat.le_of_not_lt full)
    split
    case isTrue early => rw [whole]; exact month_follows year month first early
    case isFalse late =>
      have december : month = 12 := Nat.le_antisymm last (Nat.le_of_not_lt late)
      subst december
      rw [whole]
      exact year_follows year

-- The days of a year lie from its first of January to before the next one's.
theorem year_of_days (date : Date) (valid : date.Valid) :
    daysFromCivil ⟨date.year,1,1⟩ ≤ daysFromCivil date ∧ daysFromCivil date < daysFromCivil ⟨date.year + 1,1,1⟩ := by
  obtain ⟨year,month,day⟩ := date
  obtain ⟨⟨first,last⟩,begins,ends⟩ := valid
  have short : day ≤ 31 := Nat.le_trans ends (monthLength_le year month)
  simp only at first last begins
  interval_cases month
  all_goals
    simp [daysFromCivil,marchYear,marchMonth]
    omega

theorem daysFromCivil_year (year other : Int) (later : year ≤ other) : daysFromCivil ⟨year,1,1⟩ ≤ daysFromCivil ⟨other,1,1⟩ := by
  simp [daysFromCivil,marchYear,marchMonth]
  omega

-- A date between two firsts of January is of a year between them.
theorem year_between (date : Date) (valid : date.Valid) (first last : Int) (begins : daysFromCivil ⟨first,1,1⟩ ≤ daysFromCivil date)
    (ends : daysFromCivil date < daysFromCivil ⟨last,1,1⟩) : first ≤ date.year ∧ date.year < last := by
  obtain ⟨began,ended⟩ := year_of_days date valid
  constructor
  · by_contra early
    have before := daysFromCivil_year (date.year + 1) first (by omega)
    omega
  · by_contra late
    have after := daysFromCivil_year last date.year (by omega)
    omega

theorem days_of_month (year : Int) (month day : Nat) (begins : 1 ≤ day) :
    daysFromCivil ⟨year,month,day⟩ = daysFromCivil ⟨year,month,1⟩ + (day - 1 : Nat) := by
  simp only [daysFromCivil,marchYear]
  omega

-- The months of a year lie one after another, each by its whole length.
theorem months_follow (year : Int) (month other : Nat) (first : 1 ≤ month) (later : month < other) (last : other ≤ 12) :
    daysFromCivil ⟨year,month,1⟩ + monthLength year month ≤ daysFromCivil ⟨year,other,1⟩ := by
  have whole (m : Nat) (begins : 1 ≤ m) (ends : m < 12) :
      daysFromCivil ⟨year,m + 1,1⟩ = daysFromCivil ⟨year,m,1⟩ + monthLength year m := by
    have long := monthLength_pos year m
    rw [month_follows year m begins ends,days_of_month year m _ long]
    omega
  induction other, later using Nat.le_induction with
  | base => rw [whole month first (by omega)]
  | succ n after ih =>
      rw [whole n (by omega) (by omega)]
      have before := ih (by omega)
      omega

-- No two dates have one number.
theorem daysFromCivil_inj (date other : Date) (valid : date.Valid) (valid' : other.Valid) (same : daysFromCivil date = daysFromCivil other) :
    date = other := by
  obtain ⟨began,ended⟩ := year_of_days other valid'
  obtain ⟨low,high⟩ := year_between date valid other.year (other.year + 1) (by omega) (by omega)
  obtain ⟨year,month,day⟩ := date
  obtain ⟨year',month',day'⟩ := other
  obtain rfl : year = year' := by
    simp only at low high
    omega
  obtain ⟨⟨first,last⟩,begins,ends⟩ := valid
  obtain ⟨⟨first',last'⟩,begins',ends'⟩ := valid'
  simp only at first last begins ends first' last' begins' ends'
  rw [days_of_month year month day begins,days_of_month year month' day' begins'] at same
  rcases Nat.lt_trichotomy month month' with before | rfl | after
  · have apart := months_follow year month month' first before last'
    omega
  · obtain rfl : day = day' := by omega
    rfl
  · have apart := months_follow year month' month first' after last
    omega

end LoraRan.Library.Calendar
