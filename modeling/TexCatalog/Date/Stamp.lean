import TexCatalog.Date.Calendar
import TexCatalog.Text.Blank

/-!
# Time stamps

A stamp is a number of seconds since the start of 1970, a date, or a date with a time of day and an
offset; the date of the last is the local one. The three forms are tried in this order.
-/

namespace TexCatalog.Date

def value (digits : Text) : Nat := digits.foldl (fun n c => n * 10 + (c.toNat - '0'.toNat)) 0

/-- The number in `least` to `most` leading digits, of which as many as there are count, and the
rest. -/
def number? (least most : Nat) (s : Text) : Option (Nat × Text) :=
  let digits := (s.take most).takeWhile Char.isDigit
  if digits.length < least then none else some (value digits, s.drop digits.length)

def mark? (c : Char) : Text → Option Text
  | [] => none
  | d :: s => if d = c then some s else none

def integer? (s : Text) : Option Int :=
  let (negative, digits) : Bool × Text :=
    match s with
    | '-' :: s => (true, s)
    | '+' :: s => (false, s)
    | s => (false, s)
  if digits = [] ∨ !digits.all Char.isDigit then none
  else
    let n : Int := if negative then -(value digits : Int) else value digits
    if Int64.minValue.toInt ≤ n ∧ n ≤ Int64.maxValue.toInt then some n else none

/-- A year: up to four digits, or any number of digits behind a sign. -/
def year? (s : Text) : Option (Int × Text) :=
  match Text.trimStart s with
  | '-' :: s => (number? 1 s.length s).map fun p => (-(p.1 : Int), p.2)
  | '+' :: s => (number? 1 s.length s).map fun p => ((p.1 : Int), p.2)
  | s => (number? 1 4 s).map fun p => ((p.1 : Int), p.2)

/-- A date alone; numbers may be short and have blanks before them. -/
def calendarDate? (s : Text) : Option Date := do
  let (year, s) ← year? s
  let s ← mark? '-' s
  let (month, s) ← number? 1 2 (Text.trimStart s)
  let s ← mark? '-' s
  let (day, s) ← number? 1 2 (Text.trimStart s)
  if s = [] then ofNumbers? year month day else none

def twoDigits? (bound : Nat) (s : Text) : Option (Nat × Text) := do
  let (n, s) ← number? 2 2 s
  if n < bound then some (n, s) else none

/-- The rest behind a time of day; a second may be a leap second and have a fraction. -/
def dropTime? (s : Text) : Option Text := do
  let (_, s) ← twoDigits? 24 s
  let s ← mark? ':' s
  let (_, s) ← twoDigits? 60 s
  let s ← mark? ':' s
  let (_, s) ← twoDigits? 61 s
  match s with
  | '.' :: s => if (s.takeWhile Char.isDigit) = [] then none else some (s.dropWhile Char.isDigit)
  | s => some s

/-- The rest behind an offset from universal time, of less than a day. -/
def dropOffset? : Text → Option Text
  | [] => none
  | c :: s =>
    if c = 'Z' ∨ c = 'z' then some s
    else if c = '+' ∨ c = '-' ∨ c = '\u2212' then do
      let (_, s) ← twoDigits? 24 s
      let s ← mark? ':' s
      let (_, s) ← twoDigits? 60 s
      some s
    else none

def timedDate? (s : Text) : Option Date := do
  let (year, s) ← number? 4 4 s
  let s ← mark? '-' s
  let (month, s) ← number? 2 2 s
  let s ← mark? '-' s
  let (day, s) ← number? 2 2 s
  match s with
  | [] => none
  | c :: s =>
    if c = 'T' ∨ c = 't' ∨ c = ' ' then
      let s ← dropTime? s
      let s ← dropOffset? s
      if s = [] then ofNumbers? year month day else none
    else none

def ofStamp? (s : Text) : Option Date :=
  match integer? (Text.trim s) with
  | some seconds => ofSeconds? seconds
  | none => (calendarDate? (Text.trim s)).or (timedDate? (Text.trim s))

end TexCatalog.Date
