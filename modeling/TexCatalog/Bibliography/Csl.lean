import TexCatalog.Bibliography.Entry
import TexCatalog.Bibliography.Month
import TexCatalog.Json.Number
import TexCatalog.Json.Read

/-!
# Reading CSL data

A database in CSL-JSON is an array of entries, or an object that has them under their keys. Texts
may be written as numbers, and a blank text is none.
-/

namespace TexCatalog.Bibliography

namespace Csl

def scalar? : Json → Option Text
  | .str t => some t
  | .num n => some n.print
  | _ => none

/-- The text of a field; there is none for a blank one and for one of another kind. -/
def text? (j : Option Json) : Option Text := (j.bind scalar?).filter fun t => !Text.isBlank t

/-- The only member with one of these names, if there is one; there may be no second one. -/
def uniqueMember? (names : List Text) (members : List (Text × Json)) : Option (Option Json) :=
  match members.filter fun m => names.contains m.1 with
  | [] => some none
  | [m] => some (some m.2)
  | _ => none

/-- The fields of a record, each known by some names. They are the members of an object, or the
items of an array in their order. -/
def readFields (names : List (List Text)) : Json → Option (List (Option Json))
  | .obj members => names.mapM fun names => uniqueMember? names members
  | .arr items =>
    if items.length ≤ names.length then
      some (items.map some ++ List.replicate (names.length - items.length) none)
    else none
  | _ => none

def readAuthor (j : Json) : Option Author := do
  match ← readFields [["family"], ["given"], ["literal"]] j with
  | [family, given, literal] =>
    return { family := text? family, given := text? given, literal := text? literal }
  | _ => none

/-- The authors of an entry; there are none where the field is missing. -/
def readAuthors : Option Json → Option (List Author)
  | none => some []
  | some (.arr items) => items.mapM readAuthor
  | some _ => none

def dateParts? (issued : Json) : Option (List Json) := do
  let lists ← (← issued.get? "date-parts").items?
  (← lists.head?).items?

def issued (date : Json) : Option Text × Option Nat :=
  match dateParts? date with
  | some parts =>
    (parts.head?.bind scalar?, (parts[1]?.bind scalar?).bind smallNumber?)
  | none =>
    let text := (((date.get? "raw").or (date.get? "literal")).bind Json.text?).or date.text?
    (text.map Text.trim, none)

def fieldNames : List (List Text) :=
  [["id"], ["type"], ["author"], ["title"], ["issued"], ["year"], ["month"], ["container-title"],
    ["collection-title", "booktitle"], ["event", "event-title"], ["series"], ["volume"],
    ["issue", "number"], ["page", "pages"], ["publisher"], ["edition"], ["DOI", "doi"],
    ["URL", "url"], ["arxiv", "eprint"], ["note"]]

/-- Read an entry; `key` is its identifier if it gives none. -/
def readEntry (key : Text) (j : Json) : Option Entry := do
  match ← readFields fieldNames j with
  | [id, type, author, title, date, year, month, containerTitle, collection, event, series, volume,
      issue, pages, publisher, edition, doi, url, arxiv, note] =>
    let authors ← readAuthors author
    let (issuedYear, issuedMonth) := (date.map issued).getD (none, none)
    return {
      id := (text? id).getD key
      type := (text? type).getD []
      authors
      title := text? title
      year := issuedYear.or (text? year)
      month := issuedMonth.or ((text? month).bind month?)
      containerTitle := text? containerTitle
      collection := text? collection
      event := text? event
      series := text? series
      volume := text? volume
      issue := text? issue
      pages := text? pages
      publisher := text? publisher
      edition := text? edition
      doi := text? doi
      url := text? url
      arxiv := text? arxiv
      note := text? note }
  | _ => none

def readMembers : List (Text × Json) → Option (List (Text × Entry))
  | [] => some []
  | (key, v) :: more => do
    let entry ← readEntry key v
    return (key, entry) :: (← readMembers more)

def read : Json → Option Bibliography
  | .obj members => do
    let keyed ← readMembers members
    return ofEntries ((TextMap.ofList keyed).entries.map Prod.snd)
  | .arr items => do return ofEntries (← items.mapM (readEntry []))
  | _ => none

end Csl

/-- Read a CSL-JSON text. The whole value is read before its shape is looked at. -/
def ofCsl (s : Text) : Except Failure Bibliography :=
  Json.readText (fun d => do (Csl.read (← d.toJson)).elim (.error .shape) .ok) s

end TexCatalog.Bibliography
