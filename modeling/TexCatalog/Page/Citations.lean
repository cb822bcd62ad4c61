import TexCatalog.Bibliography.Label
import TexCatalog.Bibliography.Reference
import TexCatalog.Page.Record
import TexCatalog.Tree.Basic

/-!
# Citations of a page

The references of a page stand in the order in which its tree first cites them; keys that only the
record of the page knows come last.
-/

namespace TexCatalog

def citedKey (attr : Attr) : List Text := (attr.get? "data-cite").toList

mutual

def Inline.citations : Inline → List Text
  | .link attr content _ => citedKey attr ++ inlineCitations content
  | .styled _ content => inlineCitations content
  | .quoted _ content => inlineCitations content
  | .image _ content _ => inlineCitations content
  | .span _ content => inlineCitations content
  | .crossRef _ content _ => inlineCitations content
  | .note content => blockCitations content
  | .text _ | .code .. | .space | .softBreak | .lineBreak | .math .. | .raw .. => []

def inlineCitations : List Inline → List Text
  | [] => []
  | node :: more => node.citations ++ inlineCitations more

def Block.citations : Block → List Text
  | .plain content => inlineCitations content
  | .para content => inlineCitations content
  | .header _ _ content => inlineCitations content
  | .quote content => blockCitations content
  | .div _ content => blockCitations content
  | .bullets items => itemCitations items
  | .numbered _ items => itemCitations items
  | .code .. | .raw .. | .rule => []

/-- The keys that links in blocks cite, in order and as often as they are cited. -/
def blockCitations : List Block → List Text
  | [] => []
  | block :: more => block.citations ++ blockCitations more

def itemCitations : List (List Block) → List Text
  | [] => []
  | item :: more => blockCitations item ++ itemCitations more

end

def citationOrder (blocks : List Block) (recorded : TextSet) : List Text :=
  (blockCitations blocks ++ recorded.items).eraseDups

namespace Bibliography

/-- The item of a key; a key without an entry is marked as missing. -/
def item (bib : Bibliography) (key : Text) : Except Failure Html :=
  match bib.get? key with
  | none =>
    .ok (.element .li [⟨"id", key⟩, ⟨"class", "missing"⟩] [.text ("UNDEF:" ++ key)])
  | some entry =>
    (displayLabel entry).map fun label =>
      .element .li [⟨"id", key⟩]
        (.element .span [⟨"class", "bib-label"⟩] [.text ("[" ++ label ++ "]")] :: .text " " ::
          referenceItem entry)

/-- The items of keys; the first failure counts. -/
def items (bib : Bibliography) : List Text → Except Failure (List Html)
  | [] => .ok []
  | key :: more =>
    match bib.item key with
    | .error e => .error e
    | .ok node => (items bib more).map fun nodes => node :: .newline :: nodes

def section? (bib : Bibliography) (order : List Text) : Except Failure (List Html) :=
  if order = [] then .ok []
  else
    (bib.items order).map fun nodes =>
      [.element .section [⟨"id", "references"⟩, ⟨"class", "bibliography"⟩]
        [.newline, .element (.heading 1) [] [.text "References"], .newline,
          .element .ol [] (.newline :: nodes), .newline],
      .newline]

end Bibliography

end TexCatalog
