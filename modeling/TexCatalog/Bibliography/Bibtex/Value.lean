import TexCatalog.Text.Blank

/-!
# Field values

Braces in a value protect capital letters and do not belong to it, except around a command such as
`{\\"o}`. Runs of blanks stand for one space.
-/

namespace TexCatalog.Bibliography.Bibtex

/-- The value without protecting braces; `kept` groups around a command are open. -/
def dropBraces : Nat → Text → Text
  | _, [] => []
  | kept, c :: s =>
    if c = '{' then
      if s.head? = some '\\' then c :: dropBraces (kept + 1) s else dropBraces kept s
    else if c = '}' then
      match kept with
      | 0 => dropBraces 0 s
      | kept + 1 => c :: dropBraces kept s
    else c :: dropBraces kept s

def cleanValue (value : Text) : Text := Text.squeeze (dropBraces 0 value)

end TexCatalog.Bibliography.Bibtex
