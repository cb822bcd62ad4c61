import TexCatalog.Text.Basic

/-!
# Escaping for HTML

Text in an element or in a quoted attribute value: the four characters that could be taken for
markup are replaced by entities, one after the other and the ampersand first.
-/

namespace TexCatalog.Html

def replaceChar (c : Char) (t s : Text) : Text := s.flatMap fun d => if d = c then t else [d]

def escape (s : Text) : Text :=
  replaceChar '"' "&quot;"
    (replaceChar '>' "&gt;" (replaceChar '<' "&lt;" (replaceChar '&' "&amp;" s)))

end TexCatalog.Html
