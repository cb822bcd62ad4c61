import TexCatalog.Date.Calendar
import TexCatalog.Text.Basic

/-!
# TOML scalars

The values that are written in one word: truth values, integers, floating-point numbers, dates and
times. Nothing in a configuration is of such a type, so they are checked and not evaluated.
-/

namespace TexCatalog.Toml

def isDigitRun (p : Char → Bool) : Text → Bool
  | [] => false
  | [c] => p c
  | c :: '_' :: s => p c && isDigitRun p s
  | c :: s => p c && isDigitRun p s

def isHexDigit (c : Char) : Bool :=
  c.isDigit || ('a' ≤ c && c ≤ 'f') || ('A' ≤ c && c ≤ 'F')

def isOctalDigit (c : Char) : Bool := '0' ≤ c && c ≤ '7'

def isBinaryDigit (c : Char) : Bool := c == '0' || c == '1'

def digitValue (c : Char) : Nat :=
  if c.isDigit then c.toNat - '0'.toNat
  else if 'a' ≤ c then c.toNat - 'a'.toNat + 10
  else c.toNat - 'A'.toNat + 10

def value (base : Nat) (digits : Text) : Nat :=
  (digits.filter (· ≠ '_')).foldl (fun n c => n * base + digitValue c) 0

def sign (s : Text) : Bool × Text :=
  match s with
  | '-' :: s => (true, s)
  | '+' :: s => (false, s)
  | s => (false, s)

def isWhole (s : Text) : Bool :=
  isDigitRun Char.isDigit s && (s.head? != some '0' || s.length == 1)

def fits (n : Int) : Bool := Int64.minValue.toInt ≤ n ∧ n ≤ Int64.maxValue.toInt

def isInteger (s : Text) : Bool :=
  match s with
  | '0' :: 'x' :: digits => isDigitRun isHexDigit digits && fits (value 16 digits)
  | '0' :: 'o' :: digits => isDigitRun isOctalDigit digits && fits (value 8 digits)
  | '0' :: 'b' :: digits => isDigitRun isBinaryDigit digits && fits (value 2 digits)
  | s =>
    let (negative, digits) := sign s
    isWhole digits && fits (if negative then -(value 10 digits : Int) else value 10 digits)

def isExponent (s : Text) : Bool := isDigitRun Char.isDigit (sign s).2

/-- The digits, a fraction and an exponent of a number that has a fraction, an exponent or both. -/
def decimalParts? (s : Text) : Option (Text × Text × Text) :=
  let isPart (c : Char) := c.isDigit || c == '_'
  let isMark (c : Char) := c == 'e' || c == 'E'
  let whole := s.takeWhile isPart
  if !isWhole whole then none
  else
    match s.dropWhile isPart with
    | '.' :: rest =>
      let fraction := rest.takeWhile isPart
      if !isDigitRun Char.isDigit fraction then none
      else
        match rest.dropWhile isPart with
        | [] => some (whole, fraction, [])
        | c :: exponent =>
          if isMark c && isExponent exponent then some (whole, fraction, exponent) else none
    | c :: exponent =>
      if isMark c && isExponent exponent then some (whole, [], exponent) else none
    | [] => none

def infinityBound : Nat := (1 <<< 1024) - (1 <<< 970)

/-- Is the number of some digits times a power of ten so large that it is rounded to infinity? A
number whose size decides this is not written out. -/
def isHuge (n : Nat) (e : Int) : Bool :=
  let size : Int := (Nat.toDigits 10 n).length + e
  if n = 0 ∨ size < 300 then false
  else if 320 < size then true
  else if 0 ≤ e then infinityBound ≤ n * Nat.pow 10 e.toNat
  else infinityBound * Nat.pow 10 e.natAbs ≤ n

def isDecimal (negative : Bool) (s : Text) : Bool :=
  match decimalParts? s with
  | none => false
  | some (whole, fraction, exponent) =>
    let (below, digits) := sign exponent
    let e : Int := if below then -(value 10 digits : Int) else value 10 digits
    let places := (fraction.filter (· ≠ '_')).length
    negative || !isHuge (value 10 (whole ++ fraction)) (e - places)

/-- A floating-point number; one without a minus may not be too large. -/
def isFloat (s : Text) : Bool :=
  let (negative, body) := sign s
  body == ("inf" : Text) || body == ("nan" : Text) || isDecimal negative body

/-- The number that a fixed count of decimal digits stands for, within bounds, and the rest. -/
def number? (width least most : Nat) (s : Text) : Option (Nat × Text) :=
  let digits := s.take width
  let n := value 10 digits
  if digits.length = width ∧ digits.all Char.isDigit ∧ least ≤ n ∧ n ≤ most then
    some (n, s.drop width)
  else none

def field? (width least most : Nat) (s : Text) : Option Text :=
  (number? width least most s).map Prod.snd

def mark? (c : Char) : Text → Option Text
  | [] => none
  | d :: s => if d = c then some s else none

/-- The rest of a text behind a day of the calendar. -/
def dropDate? (s : Text) : Option Text := do
  let (year, s) ← number? 4 0 9999 s
  let s ← mark? '-' s
  let (month, s) ← number? 2 1 12 s
  let s ← mark? '-' s
  let (day, s) ← number? 2 1 31 s
  (Date.ofNumbers? year month day).map fun _ => s

def dropTime? (s : Text) : Option Text := do
  let s ← field? 2 0 23 s
  let s ← mark? ':' s
  let s ← field? 2 0 59 s
  let s ← mark? ':' s
  let s ← field? 2 0 60 s
  match s with
  | '.' :: s => if (s.takeWhile Char.isDigit) = [] then none else some (s.dropWhile Char.isDigit)
  | s => some s

def isOffset (s : Text) : Bool :=
  match s with
  | [] => true
  | c :: rest =>
    if c = 'Z' ∨ c = 'z' then rest.isEmpty
    else
      (c == '+' || c == '-') &&
        match (field? 2 0 23 rest).bind (mark? ':') with
        | some rest => field? 2 0 59 rest == some []
        | none => false

def isTime (s : Text) : Bool :=
  match dropDate? s with
  | some [] => true
  | some (c :: rest) =>
    (c == 'T' || c == 't' || c == ' ') &&
      match dropTime? rest with
      | some rest => isOffset rest
      | none => false
  | none => dropTime? s == some []

def isScalar (s : Text) : Bool :=
  s == ("true" : Text) || s == ("false" : Text) || isInteger s || isFloat s || isTime s

end TexCatalog.Toml
