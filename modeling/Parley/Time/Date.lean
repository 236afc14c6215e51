namespace Parley.Time

def IsLeap (year : Int) : Prop := year % 4 = 0 ∧ (year % 100 ≠ 0 ∨ year % 400 = 0)

instance (year : Int) : Decidable (IsLeap year) := by unfold IsLeap; infer_instance

def monthLength (year : Int) (month : Nat) : Nat :=
  if month = 2 then if IsLeap year then 29 else 28
  else if month = 4 ∨ month = 6 ∨ month = 9 ∨ month = 11 then 30
  else 31

-- The years that a date can have.
def yearLimit : Int := 262143

@[ext]
structure Date where
  year : Int
  month : Nat
  day : Nat
  inYear : 1 ≤ month ∧ month ≤ 12
  inMonth : 1 ≤ day ∧ day ≤ monthLength year month
deriving DecidableEq, Repr

namespace Date

def epoch : Date := ⟨1970, 1, 1, by decide, by decide⟩

def of? (year : Int) (month day : Nat) : Option Date :=
  if h : 1 ≤ month ∧ month ≤ 12 then
    if h' : 1 ≤ day ∧ day ≤ monthLength year month then
      if -yearLimit ≤ year ∧ year < yearLimit then some ⟨year, month, day, h, h'⟩ else none
    else none
  else none

theorem monthLength_pos (year : Int) (month : Nat) : 1 ≤ monthLength year month := by
  unfold monthLength; split
  · split <;> omega
  · split <;> omega

-- The day after.
def next (d : Date) : Date :=
  if h : d.day < monthLength d.year d.month then
    { d with day := d.day + 1, inMonth := ⟨by omega, h⟩ }
  else if h : d.month < 12 then
    { d with
      month := d.month + 1
      day := 1
      inYear := ⟨by omega, h⟩
      inMonth := ⟨by omega, monthLength_pos ..⟩ }
  else ⟨d.year + 1, 1, 1, by omega, ⟨by omega, monthLength_pos ..⟩⟩

-- The day before.
def previous (d : Date) : Date :=
  if h : 1 < d.day then
    { d with day := d.day - 1, inMonth := by have := d.inMonth; omega }
  else if h : 1 < d.month then
    { d with
      month := d.month - 1
      day := monthLength d.year (d.month - 1)
      inYear := by have := d.inYear; omega
      inMonth := ⟨monthLength_pos .., by omega⟩ }
  else
    ⟨d.year - 1, 12, monthLength (d.year - 1) 12, by omega, ⟨monthLength_pos .., by omega⟩⟩

-- The calendar repeats after 400 years.
theorem monthLength_cycle (year : Int) (month n : Nat) :
    monthLength (year + 400 * n) month = monthLength year month := by
  have : IsLeap (year + 400 * n) ↔ IsLeap year := by unfold IsLeap; omega
  simp [monthLength, this]

-- The same day of the calendar, 400 years later and `n` times so.
def afterCycles (d : Date) (n : Nat) : Date :=
  { d with
    year := d.year + 400 * n
    inMonth := by rw [monthLength_cycle]; exact d.inMonth }

-- The day `n` days later.
def after (d : Date) : Nat → Date
  | 0 => d
  | n + 1 => d.next.after n

end Date
end Parley.Time
