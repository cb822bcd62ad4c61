import TexCatalog.Source.Split
import TexCatalog.Page.Record

/-!
# Structured records as text

A structured record has one field per line: a key, an ampersand at brace depth zero, a value, and
two backslashes that may be left out. Lines without an ampersand or without a key are passed over.
-/

namespace TexCatalog.Form

/-- A line without the blanks around it and without the two backslashes at its end. -/
def recordLine (line : Text) : Text :=
  let line := Text.trim line
  Text.trim ((Text.dropEnd? ['\\', '\\'] line).getD line)

def recordField? (line : Text) : Option (Text × Text) :=
  let line := recordLine line
  match Source.splitTopLevel ['&'] line with
  | key :: _ :: _ =>
    if Text.trim key = [] then none
    else some (Text.trim key, Text.trim (line.drop (key.length + 1)))
  | _ => none

/-- The fields in the body of a structured record; a later one replaces an earlier one. -/
def parseRecord (body : Text) : Fields := TextMap.ofList ((Text.lines body).filterMap recordField?)

end TexCatalog.Form
