import TexCatalog.Text.Basic

/-!
# Calendar

Days of the Gregorian calendar, extended to all years. The calendar repeats after 400 years, so a
day is found by its place in such a cycle.
-/

namespace TexCatalog

structure Date where
  year : Int
  month : Nat
  day : Nat
  deriving DecidableEq, Repr

namespace Date

def isLeap (year : Int) : Bool := year % 4 == 0 && (year % 100 != 0 || year % 400 == 0)

def yearLength (year : Int) : Nat := if isLeap year then 366 else 365

def monthLengths (year : Int) : List Nat :=
  [31, if isLeap year then 29 else 28, 31, 30, 31, 30, 31, 31, 30, 31, 30, 31]

def lowestYear : Int := -262143

def highestYear : Int := 262142

def ofNumbers? (year : Int) (month day : Nat) : Option Date :=
  if lowestYear ≤ year ∧ year ≤ highestYear ∧ 1 ≤ month ∧ 1 ≤ day ∧
      day ≤ ((monthLengths year)[month - 1]?.getD 0) then
    some ⟨year, month, day⟩
  else none

/-- The year that is `n` days after the start of `year`, looking at some years, and the days that
are left. -/
def findYear : Nat → Int → Nat → Int × Nat
  | 0, year, n => (year, n)
  | fuel + 1, year, n =>
    if n < yearLength year then (year, n) else findYear fuel (year + 1) (n - yearLength year)

/-- The month that is `n` days after the start of `month`, given the lengths of the months from
there on, and the day of that month. -/
def findMonth : Nat → Nat → List Nat → Nat × Nat
  | month, n, [] => (month, n + 1)
  | month, n, length :: more =>
    if n < length then (month, n + 1) else findMonth (month + 1) (n - length) more

def cycleLength : Nat := 146097

def epochStart : Int := 719528

def ofDayNumber (n : Int) : Date :=
  let (year, rest) := findYear 400 0 ((n + epochStart) % cycleLength).toNat
  let (month, day) := findMonth 1 rest (monthLengths year)
  ⟨400 * ((n + epochStart) / cycleLength) + year, month, day⟩

/-- The day of a number of seconds since the start of 1970, if its year is in range. -/
def ofSeconds? (seconds : Int) : Option Date :=
  let d := ofDayNumber (seconds / 86400)
  if lowestYear ≤ d.year ∧ d.year ≤ highestYear then some d else none

def padded (width n : Nat) : Text :=
  List.replicate (width - (Text.ofNat n).length) '0' ++ Text.ofNat n

/-- A year has at least four digits, and a sign if it is not between 0 and 9999. -/
def printYear (year : Int) : Text :=
  if 0 ≤ year ∧ year ≤ 9999 then padded 4 year.toNat
  else (if year < 0 then '-' else '+') :: padded 4 year.natAbs

def print (d : Date) : Text := printYear d.year ++ "-" ++ padded 2 d.month ++ "-" ++ padded 2 d.day

end Date

end TexCatalog
