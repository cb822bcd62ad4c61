import TexCatalog.Html.Tree
import TexCatalog.Tree.PlainText

/-!
# Page outline

The table of contents lists the headings of level 2 that have an identifier, outside of all blocks
but divisions, and the references if there are any.
-/

namespace TexCatalog

structure OutlineEntry where
  anchor : Text
  title : Text
  deriving DecidableEq, Repr

namespace OutlineEntry

def toHtml (e : OutlineEntry) : Html :=
  .element .li [] [.element .a [⟨"href", '#' :: e.anchor⟩] [.text e.title]]

end OutlineEntry

mutual

def Block.outline : Block → List OutlineEntry
  | .header level attr content =>
    if level = 2 ∧ attr.id ≠ [] then [⟨attr.id, Text.trim (plainText content)⟩] else []
  | .div _ content => outline content
  | .plain _ | .para _ | .code .. | .raw .. | .quote _ | .bullets _ | .numbered .. | .rule => []

def outline : List Block → List OutlineEntry
  | [] => []
  | block :: more => block.outline ++ outline more

end

namespace Outline

def references : OutlineEntry := ⟨"references", "References"⟩

/-- The lines of a list, each behind the end of a line. -/
def layout (entries : List OutlineEntry) : List Html :=
  if entries = [] then []
  else
    [.element .ul [] ((entries.flatMap fun e => [.newline, e.toHtml]) ++ [.newline])]

def contents (blocks : List Block) (hasReferences : Bool) : List Html :=
  layout (outline blocks ++ if hasReferences then [references] else [])

end Outline

end TexCatalog
