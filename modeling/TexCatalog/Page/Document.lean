import TexCatalog.Html.Template
import TexCatalog.Page.Citations
import TexCatalog.Page.Layout
import TexCatalog.Page.Outline
import TexCatalog.Walk.Page

/-!
# Finished pages

A page is the template of the site with the contents of the page in its slots.
-/

namespace TexCatalog

/-- What all pages of a site are made with. -/
structure SiteContext where
  labels : LabelIndex
  records : RecordIndex
  bibliography : Bibliography
  template : Template
  math : MathBackend
  date : Text

/-- A finished page: its file name and its text. -/
structure Document where
  fileName : Text
  text : Text
  diagnostics : Diagnostics

namespace Document

def body (site : SiteContext) (a : Artifact) : List Html × Diagnostics :=
  let ctx : LayoutContext := ⟨a.record.stem, site.labels, site.records, site.math⟩
  let r := Layout.layoutBlocks ctx a.blocks 0
  (r.1 ++ Layout.noteSection r.2.notes, r.2.diagnostics)

def style (record : PageRecord) : Text :=
  match record.css with
  | none => []
  | some css => "<style>\n" ++ Text.trim css ++ "\n</style>"

def slots (site : SiteContext) (a : Artifact) (references : List Html) : TextMap Text :=
  .ofList [
    ("title", Html.escape a.record.displayTitle),
    ("description", Html.escape a.record.displayDescription),
    ("keywords", Html.escape (a.record.keywords.getD [])),
    ("css", style a.record),
    ("math_head", site.math.head),
    ("toc", Html.printAll (Outline.contents a.blocks (!references.isEmpty))),
    ("body", Html.printAll (body site a).1),
    ("bibliography", Html.printAll references),
    ("lastmod", Html.escape site.date),
    ("page", Html.escape a.record.fileName)]

def make (site : SiteContext) (a : Artifact) : Except Failure Document :=
  match site.bibliography.section? (citationOrder a.blocks a.record.citations) with
  | .error e => .error e
  | .ok references =>
    .ok
      { fileName := a.record.fileName
        text := site.template.fill (slots site a references)
        diagnostics := (body site a).2 }

end Document

end TexCatalog
