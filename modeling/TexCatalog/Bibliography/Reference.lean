import TexCatalog.Bibliography.Entry
import TexCatalog.Html.Tree
import TexCatalog.Text.Classes

/-!
# Reference list items

An entry as an item of a reference list: authors, linked title, and the venue, the collection or
the publisher, whichever comes first. A preprint identifier is found in its own field, in a link or
in a note, and stands for the venue.
-/

namespace TexCatalog.Bibliography

def endsIdentifier (c : Char) : Bool := c.isBlank || c == '?' || c == '#'

/-- The identifier at the start of the rest of a link, which must end at the end of the link or of
its path; an extension `.pdf` is no part of it. -/
def linkIdentifier? (s : Text) : Option Text :=
  let run := s.takeWhile fun c => !endsIdentifier c
  let closed :=
    match s.dropWhile fun c => !endsIdentifier c with
    | [] => true
    | c :: _ => c == '?' || c == '#'
  if run = [] ∨ !closed then none
  else
    match Text.dropEnd? ".pdf" run with
    | some (c :: id) => some (c :: id)
    | _ => some run

def identifierInLink? : Text → Option Text
  | [] => none
  | c :: s =>
    let rest :=
      (("arxiv.org/abs/" : Text).isPrefixOf? (c :: s)).or
        (("arxiv.org/pdf/" : Text).isPrefixOf? (c :: s))
    match rest.bind linkIdentifier? with
    | some id => some id
    | none => identifierInLink? s

/-- The rest of a text behind a mark that may be written in capitals. -/
def dropMark? : Text → Text → Option Text
  | [], s => some s
  | _ :: _, [] => none
  | m :: mark, c :: s => if c.toLower = m then dropMark? mark s else none

def isIdentifierChar (c : Char) : Bool :=
  Text.isWordChar c || c == '.' || c == '-' || c == '/'

/-- The identifier at the start of a text: two or more characters of which the last is a word
character. -/
def noteIdentifier? (s : Text) : Option Text :=
  let run := (Text.trimStart s).takeWhile isIdentifierChar
  let id := (run.reverse.dropWhile fun c => !Text.isWordChar c).reverse
  if 2 ≤ id.length then some id else none

def identifierInNote? : Text → Option Text
  | [] => none
  | c :: s =>
    match (dropMark? "arxiv:" (c :: s)).bind noteIdentifier? with
    | some id => some id
    | none => identifierInNote? s

def arxivId? (e : Entry) : Option Text :=
  match e.arxiv with
  | some id => some (Text.trim id)
  | none => (e.url.bind identifierInLink?).or (e.note.bind identifierInNote?)

def linkTarget? (e : Entry) : Option Text :=
  match e.doi with
  | some doi =>
    let doi := Text.trim doi
    if ("http" : Text).isPrefixOf doi then some doi else some ("https://doi.org/" ++ doi)
  | none =>
    match arxivId? e with
    | some id => some ("https://arxiv.org/abs/" ++ id)
    | none => e.url

/-- The names in a row, with the word `and` before the last one. -/
def joinNames : List Text → Text
  | [] => []
  | [one] => one
  | [a, b] => a ++ " and " ++ b
  | names => Text.join ", " names.dropLast ++ ", and " ++ names.getLastD []

def authorNames (e : Entry) : Text := joinNames ((e.authors.map Author.fullName).filter (· ≠ []))

def pageRange (pages : Text) : Text :=
  Text.replace ['-'] ['\u2013'] (Text.replace "--" ['\u2013'] pages)

def monthNames : List Text :=
  ["January", "February", "March", "April", "May", "June", "July", "August", "September",
    "October", "November", "December"]

def monthName? : Nat → Option Text
  | 0 => none
  | m + 1 => monthNames[m]?

/-- The year, behind the name of the month if it has one. -/
def date? (e : Entry) : Option Text :=
  e.year.map fun year =>
    match e.month.bind monthName? with
    | some month => month ++ " " ++ year
    | none => year

def behind (mark : Text) : Option Text → Text
  | none => []
  | some t => mark ++ t

def byline (e : Entry) : List Html :=
  if authorNames e = [] then [] else [.text (authorNames e ++ ". ")]

def heading (e : Entry) : List Html :=
  match linkTarget? e with
  | some href =>
    [.element .a [⟨"href", href⟩] [.text (e.title.getD e.id)], .text ". "]
  | none => [.text (e.title.getD e.id ++ ". ")]

def venueDetails (e : Entry) : Text :=
  behind ", " e.volume ++ behind "(" (e.issue.map (· ++ ")")) ++
    behind ":" (e.pages.map pageRange) ++ behind ", " (date? e) ++ "."

def collectionDetails (e : Entry) : Text := behind ", " e.publisher ++ behind ", " e.year ++ "."

def imprint (e : Entry) : Text :=
  let parts := [e.series, e.publisher, e.edition.map (· ++ " edition"), e.year].filterMap id
  if parts = [] then [] else Text.join ", " parts ++ "."

def venue? (e : Entry) : Option Text :=
  ((arxivId? e).map fun id : Text => ("arXiv:" : Text) ++ id).or e.containerTitle

def origin (e : Entry) : List Html :=
  match venue? e with
  | some venue => [.element .em [] [.text venue], .text (venueDetails e)]
  | none =>
    match e.collection.or e.event with
    | some collection =>
      [.text "In ", .element .em [] [.text collection], .text (collectionDetails e)]
    | none => [.text (imprint e)]

def referenceItem (e : Entry) : List Html :=
  Html.trimEnd (byline e ++ heading e ++ origin e ++ [.text (behind " " e.note)])

def formatEntry (e : Entry) : Text := Html.printAll (referenceItem e)

end TexCatalog.Bibliography
