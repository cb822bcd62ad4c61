import TexCatalog.Decimal.Shortest
import TexCatalog.Json.Basic

/-!
# JSON numbers

A numeral is a number as it is written. One that is an integer of at most 64 bits stands for it. Any
other stands for a floating-point number: the leading digits that fit 64 bits are scaled by one
power of ten in floating-point arithmetic, so the result may differ from the nearest one in its
last bit. A numeral that is too large stands for no number.
-/

namespace TexCatalog.Json.Number

def digit (c : Char) : Nat := c.toNat - '0'.toNat

/-- Append digits to a number as long as it stays below 2 ^ 64; also how many were appended. -/
def accumulate : Nat → Text → Nat × Nat
  | n, [] => (n, 0)
  | n, c :: s =>
    if UInt64.size ≤ n * 10 + digit c then (n, 0)
    else
      let (n, used) := accumulate (n * 10 + digit c) s
      (n, used + 1)

/-- Scale by a power of ten; an exponent below -308 takes several divisions. -/
def scale : Nat → Float → Int → Option Float
  | fuel, x, e =>
    if e.natAbs ≤ 308 then
      let power := Float.ofScientific 1 false e.natAbs
      if 0 ≤ e then
        if (x * power).isInf then none else some (x * power)
      else some (x / power)
    else if x == 0.0 then some x
    else if 0 ≤ e then none
    else
      match fuel with
      | 0 => some 0.0
      | fuel + 1 => scale fuel (x / Float.ofScientific 1 false 308) (e + 308)

/-- A number as it is written: a sign, digits, the digits behind a decimal point, and an exponent
with its sign and its digits. -/
structure Numeral where
  negative : Bool
  whole : Text
  fraction : Option Text
  exponent : Option (Bool × Text)
  deriving DecidableEq, Repr

namespace Numeral

def value? (m : Numeral) : Option Number :=
  let signed (x : Float) := Number.float (if m.negative then -x else x)
  let (n, used) := accumulate 0 m.whole
  let dropped := m.whole.length - used
  match m.fraction, m.exponent, dropped with
  | none, none, 0 =>
    if !m.negative then some (.int n)
    else if n = 0 ∨ -(n : Int) < Int64.minValue.toInt then some (signed n.toUInt64.toFloat)
    else some (.int (-n))
  | _, _, _ =>
    let (n, used) := accumulate n (m.fraction.getD [])
    let e : Int := (dropped : Int) - used
    match m.exponent with
    | none => (scale 4 n.toUInt64.toFloat e).map signed
    | some (below, digits) =>
      let size := digits.foldl (fun k c => k * 10 + digit c) 0
      if Int32.maxValue.toInt < size then
        if n ≠ 0 ∧ !below then none else some (signed 0.0)
      else (scale 4 n.toUInt64.toFloat (if below then e - size else e + size)).map signed

def fraction? : Text → Option (Option Text × Text)
  | '.' :: s =>
    let digits := s.takeWhile Char.isDigit
    if digits = [] then none else some (some digits, s.dropWhile Char.isDigit)
  | s => some (none, s)

def exponent? (s : Text) : Option (Option (Bool × Text) × Text) :=
  match s with
  | [] => some (none, [])
  | c :: rest =>
    if c = 'e' ∨ c = 'E' then
      let (below, rest) : Bool × Text :=
        match rest with
        | '+' :: rest => (false, rest)
        | '-' :: rest => (true, rest)
        | rest => (false, rest)
      let digits := rest.takeWhile Char.isDigit
      if digits = [] then none else some (some (below, digits), rest.dropWhile Char.isDigit)
    else some (none, s)

/-- The numeral at the start of a text, which begins with a digit or a minus sign. -/
def read? (s : Text) : Option (Numeral × Text) :=
  let (negative, s) : Bool × Text :=
    match s with
    | '-' :: s => (true, s)
    | s => (false, s)
  let whole := s.takeWhile Char.isDigit
  if whole = [] ∨ (whole.head? = some '0' ∧ 1 < whole.length) then none
  else do
    let (fraction, s) ← fraction? (s.dropWhile Char.isDigit)
    let (exponent, s) ← exponent? s
    some ({ negative, whole, fraction, exponent }, s)

end Numeral

def print : Number → Text
  | .int n => Text.ofInt n
  | .float x => Decimal.print x

end TexCatalog.Json.Number
