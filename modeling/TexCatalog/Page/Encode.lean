import TexCatalog.Json.Read
import TexCatalog.Json.Printer
import TexCatalog.Tree.Decode
import TexCatalog.Walk.Page

/-!
# Pages as JSON

The record of a page and its artifact, which is the record together with the tree. Sets and maps
are written in ascending order, so the text of an artifact depends on nothing but its contents.
-/

namespace TexCatalog

open Json (Draft Decoded RecordField)

namespace PageSection

def toJson (s : PageSection) : Json :=
  .obj [(("id" : Text), .str s.id), (("title" : Text), .str s.title),
    (("level" : Text), Json.nat s.level.toNat)]

def fields : List (RecordField PageSection) :=
  [⟨"id", false, fun d s => do return { s with id := ← d.text }⟩,
   ⟨"title", false, fun d s => do return { s with title := ← d.text }⟩,
   ⟨"level", true, fun d s => do
      return { s with level := UInt8.ofNat (← d.intWithin 0 255).toNat }⟩]

def ofDraft (d : Draft) : Decoded PageSection := d.record fields { id := [], title := [] }

end PageSection

namespace PageRecord

/-- A member for an optional text; there is none without a text. -/
def optionalMember (name : Text) : Option Text → List (Text × Json)
  | none => []
  | some t => [(name, .str t)]

def toJson (r : PageRecord) : Json :=
  .obj ([(("sourcestem" : Text), Json.str r.stem)] ++
    optionalMember "metatitle" r.title ++
    optionalMember "metadescription" r.description ++
    optionalMember "metakeywords" r.keywords ++
    [(("labels" : Text), Json.ofTextSet r.labels),
     (("citations" : Text), Json.ofTextSet r.citations),
     (("todos" : Text), Json.ofList .str r.todos),
     (("families" : Text), Json.ofList PageSection.toJson r.sections),
     (("polydata" : Text), Json.ofTextMap (Json.ofTextMap .str) r.records)] ++
    optionalMember "custom_css" r.css ++
    [(("urls" : Text), Json.ofTextSet r.urls)])

def fields : List (RecordField PageRecord) :=
  [⟨"sourcestem", false, fun d r => do return { r with stem := ← d.text }⟩,
   ⟨"metatitle", true, fun d r => do return { r with title := ← d.option Draft.text }⟩,
   ⟨"metadescription", true, fun d r => do return { r with description := ← d.option Draft.text }⟩,
   ⟨"metakeywords", true, fun d r => do return { r with keywords := ← d.option Draft.text }⟩,
   ⟨"labels", true, fun d r => do return { r with labels := ← d.textSet }⟩,
   ⟨"citations", true, fun d r => do return { r with citations := ← d.textSet }⟩,
   ⟨"todos", true, fun d r => do return { r with todos := ← d.list Draft.text }⟩,
   ⟨"families", true, fun d r => do return { r with sections := ← d.list PageSection.ofDraft }⟩,
   ⟨"polydata", true, fun d r => do
      return { r with records := ← d.textMap (·.textMap Draft.text) }⟩,
   ⟨"custom_css", true, fun d r => do return { r with css := ← d.option Draft.text }⟩,
   ⟨"urls", true, fun d r => do return { r with urls := ← d.textSet }⟩]

def ofDraft (d : Draft) : Decoded PageRecord := d.record fields { stem := [] }

end PageRecord

namespace Artifact

def toJson (a : Artifact) : Json :=
  .obj [(("meta" : Text), a.record.toJson), (("blocks" : Text), blocksToJson a.blocks)]

def fields : List (RecordField Artifact) :=
  [⟨"meta", false, fun d a => do return { a with record := ← PageRecord.ofDraft d }⟩,
   ⟨"blocks", false, fun d a => do return { a with blocks := ← blocksOfDraft d }⟩]

def ofDraft (d : Draft) : Decoded Artifact := d.record fields ⟨{ stem := [] }, []⟩

def toText (a : Artifact) : Text := Json.pretty a.toJson

end Artifact

def Artifact.ofText (s : Text) : Except Failure Artifact := Json.readText ofDraft s

end TexCatalog
