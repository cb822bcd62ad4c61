import TexCatalog.Text.Map
import TexCatalog.Text.Set

/-!
# Page records

What the site knows of a page besides its tree. The findings of two parts of a page combine to the
findings of the whole: sets and lists are joined, and of two titles or two records with one name the
later counts.
-/

namespace TexCatalog

structure PageSection where
  id : Text
  title : Text
  level : UInt8 := 2
  deriving DecidableEq, Repr

abbrev Fields := TextMap Text

structure Findings where
  title : Option Text := none
  description : Option Text := none
  keywords : Option Text := none
  labels : TextSet := ∅
  citations : TextSet := ∅
  todos : List Text := []
  sections : List PageSection := []
  records : TextMap Fields := ∅
  css : Option Text := none
  /-- The target and the plain text of every link, with a space between them. -/
  urls : TextSet := ∅

namespace Findings

def empty : Findings := {}

def joinRules (a b : Text) : Text :=
  if a = [] ∨ a.getLast? = some '\n' then a ++ b else a ++ '\n' :: b

def joinCss : Option Text → Option Text → Option Text
  | none, b => b
  | some a, none => some a
  | some a, some b => some (joinRules a b)

/-- The findings of two parts, the first in front of the second. -/
def combine (a b : Findings) : Findings where
  title := b.title.or a.title
  description := b.description.or a.description
  keywords := b.keywords.or a.keywords
  labels := a.labels.union b.labels
  citations := a.citations.union b.citations
  todos := a.todos ++ b.todos
  sections := a.sections ++ b.sections
  records := a.records.union b.records
  css := joinCss a.css b.css
  urls := a.urls.union b.urls

def ofLabel (label : Text) : Findings := { labels := .singleton label }

def ofCitation (key : Text) : Findings := { citations := .singleton key }

def ofUrl (url text : Text) : Findings := { urls := .singleton (url ++ " " ++ text) }

end Findings

/-- Everything the site knows of one page besides its tree. -/
structure PageRecord extends Findings where
  /-- The file name of the source without its extension. -/
  stem : Text

namespace PageRecord

def fileName (r : PageRecord) : Text := r.stem ++ ".htm"

def href (r : PageRecord) (label : Text) : Text := r.fileName ++ '#' :: label

def sectionTitles (r : PageRecord) : Text := Text.join ", " (r.sections.map (·.title))

def displayTitle (r : PageRecord) : Text := r.title.getD r.sectionTitles

def displayDescription (r : PageRecord) : Text :=
  r.description.getD (if r.sections = [] then [] else "Families: " ++ r.sectionTitles)

def sectionTitle? (r : PageRecord) (label : Text) : Option Text :=
  (r.sections.find? fun s => s.id == label).map (·.title)

def appendCss (r : PageRecord) (css : Text) : PageRecord :=
  { r with css := Findings.joinCss r.css (some css) }

def addSection (r : PageRecord) (s : PageSection) : PageRecord :=
  { r with sections := r.sections ++ [s] }

end PageRecord

end TexCatalog
