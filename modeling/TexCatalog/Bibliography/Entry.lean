import TexCatalog.Text.Blank
import TexCatalog.Text.Map

/-!
# Bibliography entries

An entry is what the site knows of one cited work. A bibliography is a map from citation keys to
entries, in which each entry stands under its own key.
-/

namespace TexCatalog

structure Author where
  family : Option Text := none
  given : Option Text := none
  literal : Option Text := none
  deriving DecidableEq, Repr

namespace Author

/-- A name in parts; an empty given name is none. -/
def ofParts (family given : Text) : Author :=
  { family := some family, given := if given = [] then none else some given }

def ofLiteral (name : Text) : Author := { literal := some name }

def surname (a : Author) : Option Text :=
  match a.family, a.literal with
  | some family, _ => some family
  | none, some literal => (Text.words literal).getLast?
  | none, none => none

def fullName (a : Author) : Text :=
  match a.given, a.family, a.literal with
  | some given, some family, _ => given ++ " " ++ family
  | none, some family, _ => family
  | _, none, some literal => literal
  | _, none, none => []

end Author

structure Entry where
  id : Text := []
  type : Text := []
  authors : List Author := []
  title : Option Text := none
  year : Option Text := none
  month : Option Nat := none
  containerTitle : Option Text := none
  collection : Option Text := none
  event : Option Text := none
  series : Option Text := none
  volume : Option Text := none
  issue : Option Text := none
  pages : Option Text := none
  publisher : Option Text := none
  edition : Option Text := none
  doi : Option Text := none
  url : Option Text := none
  arxiv : Option Text := none
  note : Option Text := none
  deriving DecidableEq, Repr

abbrev Bibliography := TextMap Entry

namespace Bibliography

def ofEntries (entries : List Entry) : Bibliography :=
  TextMap.ofList (entries.map fun e => (e.id, e))

end Bibliography

end TexCatalog
