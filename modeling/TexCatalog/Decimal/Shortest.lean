import TexCatalog.Text.Basic

/-!
# Shortest decimals

The decimal with the fewest digits that reads back as a given binary floating-point number. The
number is m · 2 ^ q; the reals that round to it form an interval around it, which contains its ends
exactly when m is even. Among 1, 2, …, 17 digits the first grid with a point in the interval wins,
and of two such points the one nearer to the number.
-/

namespace TexCatalog.Decimal

structure Binary where
  m : Nat
  q : Int
  /-- The neighbour below is only half as far away as the one above. -/
  narrow : Bool

structure Ratio where
  num : Nat
  den : Nat

namespace Ratio

def ofBinary (n : Nat) (q : Int) : Ratio := ⟨n * Nat.pow 2 q.toNat, Nat.pow 2 (-q).toNat⟩

def ofDecimal (n : Nat) (k : Int) : Ratio := ⟨n * Nat.pow 10 k.toNat, Nat.pow 10 (-k).toNat⟩

def le (a b : Ratio) : Bool := a.num * b.den ≤ b.num * a.den

def lt (a b : Ratio) : Bool := a.num * b.den < b.num * a.den

def floorAt (a : Ratio) (k : Int) : Nat :=
  a.num * Nat.pow 10 (-k).toNat / (a.den * Nat.pow 10 k.toNat)

/-- Twice the distance from the point at n to the number is at most one step of the grid. -/
def lowerHalf (a : Ratio) (n : Nat) (k : Int) : Bool :=
  (⟨2 * a.num, a.den⟩ : Ratio).le (ofDecimal (2 * n + 1) k)

end Ratio

namespace Binary

def value (b : Binary) : Ratio := .ofBinary (4 * b.m) (b.q - 2)

def low (b : Binary) : Ratio := .ofBinary (4 * b.m - if b.narrow then 1 else 2) (b.q - 2)

def high (b : Binary) : Ratio := .ofBinary (4 * b.m + 2) (b.q - 2)

def accepts (b : Binary) (n : Nat) (k : Int) : Bool :=
  let d := Ratio.ofDecimal n k
  if b.m % 2 = 0 then b.low.le d && d.le b.high else b.low.lt d && d.lt b.high

/-- The least e from `e` on, in at most `fuel` steps, for which the number is below 10 ^ e. -/
def magnitudeFrom (b : Binary) : Nat → Int → Int
  | 0, e => e
  | fuel + 1, e => if b.value.lt (.ofDecimal 1 e) then e else b.magnitudeFrom fuel (e + 1)

/-- How many digits the number has in front of its decimal point; zero or less for a fraction. -/
def magnitude (b : Binary) : Int := b.magnitudeFrom 700 (-330)

/-- The digits and the exponent on the first grid, from `n` digits on, that meets the interval. -/
def shortestFrom (b : Binary) : Nat → Int → Nat × Int
  | 0, k => (b.value.floorAt k, k)
  | fuel + 1, k =>
    let below := b.value.floorAt k
    match b.accepts below k && below != 0, b.accepts (below + 1) k with
    | true, true => (if b.value.lowerHalf below k then below else below + 1, k)
    | true, false => (below, k)
    | false, true => (below + 1, k)
    | false, false => b.shortestFrom fuel (k - 1)

def shortest (b : Binary) : Nat × Int := b.shortestFrom 17 (b.magnitude - 1)

end Binary

/-- The sign and the magnitude of a finite number; zero has none. -/
def ofFloat (x : Float) : Bool × Option Binary :=
  let bits := x.toBits.toNat
  let negative := bits >>> 63 = 1
  let exponent : Nat := (bits >>> 52) % 2048
  let fraction := bits % (1 <<< 52)
  if exponent = 0 then
    (negative, if fraction = 0 then none else some ⟨fraction, -1074, false⟩)
  else
    (negative, some ⟨fraction + (1 <<< 52), (exponent : Int) - 1075, fraction = 0 ∧ 1 < exponent⟩)

/-- The digits of a number without the zeros at its end, and how many there were. -/
def stripZeros : Nat → Nat → Nat → Nat × Nat
  | 0, n, dropped => (n, dropped)
  | fuel + 1, n, dropped =>
    if n ≠ 0 ∧ n % 10 = 0 then stripZeros fuel (n / 10) (dropped + 1) else (n, dropped)

def digits (b : Binary) : Text × Int :=
  let (n, k) := b.shortest
  let (n, dropped) := stripZeros 20 n 0
  let text := Text.ofNat n
  (text, text.length + k + dropped)

/-- Digits with a decimal point: positional from 0.00001 up to below 10 ^ 16, else with an exponent
that has a sign. -/
def layout (digits : Text) (point : Int) : Text :=
  let count : Int := digits.length
  if 0 < point ∧ point ≤ 16 then
    if count ≤ point then digits ++ List.replicate (point - count).toNat '0' ++ ".0"
    else digits.take point.toNat ++ "." ++ digits.drop point.toNat
  else if -5 < point ∧ point ≤ 0 then
    "0." ++ List.replicate (-point).toNat '0' ++ digits
  else
    let mantissa := digits.take 1 ++ (if digits.length = 1 then [] else '.' :: digits.drop 1)
    let exponent := point - 1
    mantissa ++ (if exponent < 0 then "e-" else "e+") ++ Text.ofNat exponent.natAbs

def print (x : Float) : Text :=
  match ofFloat x with
  | (negative, b) =>
    let sign : Text := if negative then ['-'] else []
    match b with
    | none => sign ++ "0.0"
    | some b => sign ++ layout (digits b).1 (digits b).2

end TexCatalog.Decimal
