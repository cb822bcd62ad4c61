import TexCatalog.Text.Blank
import TexCatalog.Text.Lowercase

/-!
# Months and small numbers

A month is written as its number or by a name that begins with the first three letters of its
English name.
-/

namespace TexCatalog.Bibliography

/-- A natural number below 2 ^ 32 in decimal digits, possibly behind a plus sign. -/
def smallNumber? (s : Text) : Option Nat :=
  let digits : Text :=
    match s with
    | '+' :: s => s
    | s => s
  if digits ≠ [] ∧ digits.all Char.isDigit then
    let n := digits.foldl (fun n c => n * 10 + (c.toNat - '0'.toNat)) 0
    if n < UInt32.size then some n else none
  else none

def monthBeginnings : List Text :=
  ["jan", "feb", "mar", "apr", "may", "jun", "jul", "aug", "sep", "oct", "nov", "dec"]

def month? (s : Text) : Option Nat :=
  let s := Text.trim s
  match smallNumber? s with
  | some n => if 1 ≤ n ∧ n ≤ 12 then some n else none
  | none => (monthBeginnings.findIdx? fun m => m.isPrefixOf (Text.lower s)).map (· + 1)

end TexCatalog.Bibliography
