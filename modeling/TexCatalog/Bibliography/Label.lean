import TexCatalog.Bibliography.Entry
import TexCatalog.Bibliography.Folding
import TexCatalog.Failure

/-!
# Display labels

The short label under which an entry is cited: letters from the surnames of its authors, folded to
ASCII, and the year without its first two bytes.
-/

namespace TexCatalog.Bibliography

def firstYear? : Text → Option Text
  | [] => none
  | c :: s =>
    let run := (c :: s).take 4
    if run.length = 4 ∧ run.all Text.isDecimalDigit then some run else firstYear? s

/-- The text without its first bytes; there is none where a character would be cut. -/
def dropBytes? : Nat → Text → Option Text
  | 0, s => some s
  | _ + 1, [] => none
  | n + 1, c :: s => if c.utf8Size ≤ n + 1 then dropBytes? (n + 1 - c.utf8Size) s else none
termination_by _ s => s.length

/-- Three letters of an only surname, or the initials of all words of several. -/
def initials : List Text → Text
  | [] => []
  | [only] => only.take 3
  | many => many.flatMap fun surname => (Text.words surname).filterMap List.head?

def shorten (key : Text) : Text := if 5 ≤ key.length then key.take 4 ++ ['+'] else key

def labelKey (e : Entry) : Text :=
  foldAscii (shorten (initials (e.authors.filterMap Author.surname)))

/-- The end of a year, which fails if its second byte lies inside a character. -/
def yearSuffix (e : Entry) : Except Failure Text :=
  match e.year.bind firstYear? with
  | none => .ok []
  | some year =>
    match dropBytes? 2 year with
    | none => .error .splitCharacter
    | some rest => .ok rest

def displayLabel (e : Entry) : Except Failure Text :=
  match yearSuffix e with
  | .error f => .error f
  | .ok suffix => .ok (labelKey e ++ suffix)

end TexCatalog.Bibliography
