import TexCatalog.Json.Printer
import TexCatalog.Json.Read
import TexCatalog.Page.Record

/-!
# Site indexes

The label index says where each label of the site stands, and the record index has all structured
records. Both are kept in files between the stages.
-/

namespace TexCatalog

structure LabelEntry where
  page : Text
  href : Text
  title : Text
  deriving DecidableEq, Repr

abbrev LabelIndex := TextMap LabelEntry

/-- The structured records of the site, each with the stem of its page among its fields. -/
abbrev RecordIndex := TextMap Fields

inductive RefTarget where
  | resolved (href : Text)
  | deferred (label : Text)
  deriving DecidableEq, Repr

namespace LabelIndex

/-- Look up a label; an unknown one stays deferred. -/
def resolve (labels : LabelIndex) (label : Text) : RefTarget :=
  match labels.get? label with
  | some entry => .resolved entry.href
  | none => .deferred label

end LabelIndex

namespace LabelEntry

def toJson (e : LabelEntry) : Json :=
  .obj [(("page" : Text), .str e.page), (("href" : Text), .str e.href),
    (("title" : Text), .str e.title)]

def fields : List (Json.RecordField LabelEntry) :=
  [⟨"page", false, fun d e => do return { e with page := ← d.text }⟩,
   ⟨"href", false, fun d e => do return { e with href := ← d.text }⟩,
   ⟨"title", false, fun d e => do return { e with title := ← d.text }⟩]

def ofDraft (d : Json.Draft) : Json.Decoded LabelEntry := d.record fields ⟨[], [], []⟩

end LabelEntry

namespace LabelIndex

def toJson (labels : LabelIndex) : Json := Json.ofTextMap LabelEntry.toJson labels

def ofDraft (d : Json.Draft) : Json.Decoded LabelIndex := d.textMap LabelEntry.ofDraft

def toText (labels : LabelIndex) : Text := Json.pretty labels.toJson

def ofText (s : Text) : Except Failure LabelIndex := Json.readText ofDraft s

end LabelIndex

namespace RecordIndex

def toJson (records : RecordIndex) : Json := Json.ofTextMap (Json.ofTextMap .str) records

def ofDraft (d : Json.Draft) : Json.Decoded RecordIndex := d.textMap (·.textMap Json.Draft.text)

def toText (records : RecordIndex) : Text := Json.pretty (toJson records)

def ofText (s : Text) : Except Failure RecordIndex := Json.readText ofDraft s

end RecordIndex

end TexCatalog
