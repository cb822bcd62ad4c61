import TexCatalog.Diagnostics
import TexCatalog.Site.Index

/-!
# Merging pages

The records of all pages give the site indexes. Pages are merged in the order of their stems: of two
pages that define a label the first one keeps it, which is an error, and of two structured records
with one name the last one counts.
-/

namespace TexCatalog

structure Merged where
  labels : LabelIndex
  records : RecordIndex
  pages : List Text
  diagnostics : Diagnostics

namespace Merged

def labelEntry (page : PageRecord) (label : Text) : LabelEntry where
  page := page.stem
  href := page.href label
  title := (page.sectionTitle? label).getD page.displayTitle

def pageLabels (page : PageRecord) : LabelIndex :=
  TextMap.ofList (page.labels.items.map fun label => (label, labelEntry page label))

/-- The labels of pages, of which an earlier one keeps a label that a later one defines too. -/
def labelIndex : List PageRecord → LabelIndex
  | [] => ∅
  | page :: more => (labelIndex more).union (pageLabels page)

def pageField : Text := "page"

def pageRecords (page : PageRecord) : RecordIndex :=
  TextMap.ofList (page.records.entries.map fun e => (e.1, e.2.insert pageField page.stem))

def recordIndex : List PageRecord → RecordIndex
  | [] => ∅
  | page :: more => (pageRecords page).union (recordIndex more)

def owners (pages : List PageRecord) (label : Text) : List Text :=
  (pages.filter fun page => page.labels.contains label).map (·.stem)

def checkOwners (pages : List PageRecord) (label : Text) : Diagnostics :=
  if 1 < (owners pages label).length then
    [⟨.error, [],
      "duplicate label " ++ label ++ " defined on pages " ++ Text.join ", " (owners pages label)⟩]
  else []

def requiredFields : List Text := ["Name", "Category", "Year", "Rating"]

def hasField (fields : Fields) (name : Text) : Bool :=
  match fields.get? name with
  | none => false
  | some value => !Text.isBlank value

/-- The errors in a structured record: no label has its name, or a required field is missing. -/
def checkRecord (labels : LabelIndex) (name : Text) (fields : Fields) : Diagnostics :=
  let page := (fields.get? pageField).getD []
  (if labels.contains name then []
    else [⟨.error, page, "record " ++ name ++ " has no corresponding label"⟩]) ++
  ((requiredFields.filter fun field => !hasField fields field).map fun field =>
    ⟨.error, page,
      "record " ++ name ++ " on page " ++ page ++ " is missing required field " ++ field⟩)

def check (pages : List PageRecord) : Diagnostics :=
  (labelIndex pages).keys.flatMap (checkOwners pages) ++
    (recordIndex pages).entries.flatMap fun e => checkRecord (labelIndex pages) e.1 e.2

def ofSorted (pages : List PageRecord) : Merged where
  labels := labelIndex pages
  records := recordIndex pages
  pages := (TextSet.ofList (pages.map PageRecord.fileName)).items
  diagnostics := check pages

end Merged

def merge (pages : List PageRecord) : Merged := .ofSorted (Text.sortBy (·.stem) pages)

end TexCatalog
