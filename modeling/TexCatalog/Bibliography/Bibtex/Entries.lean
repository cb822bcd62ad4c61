import TexCatalog.Bibliography.Bibtex.Names
import TexCatalog.Bibliography.Bibtex.Scan
import TexCatalog.Bibliography.Month

/-!
# Reading BibTeX

The fields of a scanned entry by their meaning. Only a text with malformed entries and no readable
one is a failure.
-/

namespace TexCatalog.Bibliography

namespace Bibtex

namespace RawEntry

/-- The cleaned value of a field, unless it is empty. -/
def field? (raw : RawEntry) (name : Text) : Option Text :=
  ((raw.fields.get? name).map cleanValue).filter (· ≠ [])

def authors (raw : RawEntry) : Except Failure (List Author) :=
  match raw.fields.get? "author" with
  | none => .ok []
  | some value => authorsOfList value

def describe (raw : RawEntry) (authors : List Author) : Entry where
  id := raw.key
  type := raw.type
  authors := authors
  title := raw.field? "title"
  year := raw.field? "year"
  month := (raw.field? "month").bind month?
  containerTitle := (raw.field? "journal").or (raw.field? "journaltitle")
  collection := raw.field? "booktitle"
  event := raw.field? "eventtitle"
  series := raw.field? "series"
  volume := raw.field? "volume"
  issue := (raw.field? "number").or (raw.field? "issue")
  pages := raw.field? "pages"
  publisher := (raw.field? "publisher").or (raw.field? "institution")
  edition := raw.field? "edition"
  doi := raw.field? "doi"
  url := raw.field? "url"
  arxiv := (raw.field? "eprint").or (raw.field? "arxiv")
  note := raw.field? "note"

def toEntry (raw : RawEntry) : Except Failure Entry := raw.authors.map raw.describe

end RawEntry

/-- The entries of scanned ones; the first failure counts. -/
def toEntries : List RawEntry → Except Failure (List Entry)
  | [] => .ok []
  | raw :: more =>
    match raw.toEntry with
    | .error e => .error e
    | .ok entry => (toEntries more).map (entry :: ·)

end Bibtex

def ofBibtex (s : Text) : Except Failure Bibliography :=
  match Bibtex.toEntries (Bibtex.scan s).1 with
  | .error e => .error e
  | .ok entries =>
    if entries = [] ∧ (Bibtex.scan s).2 ≠ 0 then .error (.malformedEntries (Bibtex.scan s).2)
    else .ok (ofEntries entries)

end TexCatalog.Bibliography
