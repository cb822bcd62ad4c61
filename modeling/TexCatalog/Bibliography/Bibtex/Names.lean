import TexCatalog.Bibliography.Bibtex.Value
import TexCatalog.Bibliography.Entry
import TexCatalog.Failure

/-!
# Author lists

The names of a list are separated by the word `and` outside braces. A name wholly in braces is a
literal; others are written `Family, Given` or `Given Family`.
-/

namespace TexCatalog.Bibliography.Bibtex

/-- The parts of a list between separators outside braces. The search goes from byte to byte, so
outside braces every character must have one byte. -/
def splitNames (depth : Int) : Text → Except Failure (List Text)
  | [] => .ok [[]]
  | c :: s =>
    if c = '{' then (splitNames (depth + 1) s).map (Text.consHead c)
    else if c = '}' then (splitNames (depth - 1) s).map (Text.consHead c)
    else if depth = 0 then
      if 1 < c.utf8Size then .error .splitCharacter
      else if (" and " : Text).isPrefixOf (c :: s) then
        (splitNames depth (s.drop 4)).map ([] :: ·)
      else (splitNames depth s).map (Text.consHead c)
    else (splitNames depth s).map (Text.consHead c)
termination_by s => s.length
decreasing_by all_goals (simp; try omega)

/-- Does no group end before the end of the text, where `depth` groups are open? -/
def closesLate : Nat → Text → Bool
  | _, [] => true
  | depth, c :: s =>
    if c = '{' then closesLate (depth + 1) s
    else if c = '}' then (depth ≠ 1 || s = []) && closesLate (depth - 1) s
    else closesLate depth s

def isGroup (name : Text) : Bool :=
  name.head? == some '{' && name.getLast? == some '}' && closesLate 0 name

def authorOfName (name : Text) : Author :=
  if isGroup name then .ofLiteral (cleanValue name)
  else
    match Text.cut? [','] (cleanValue name) with
    | some (family, given) => .ofParts (Text.trim family) (Text.trim given)
    | none =>
      match Text.cutLast? [' '] (cleanValue name) with
      | some (given, family) => .ofParts family given
      | none => .ofParts (cleanValue name) []

def authorsOfList (value : Text) : Except Failure (List Author) :=
  (splitNames 0 value).map fun names =>
    ((names.map Text.trim).filter (· ≠ [])).map authorOfName

end TexCatalog.Bibliography.Bibtex
