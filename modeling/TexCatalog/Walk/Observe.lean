import TexCatalog.Page.Record
import TexCatalog.Tree.PlainText

/-!
# Observing a tree

The labels, citations and links that stand in a tree: the identifiers of headers, divisions and
spans, the citation keys of links, and every link with its plain text.
-/

namespace TexCatalog

def labelFindings (attr : Attr) : Findings :=
  if attr.id = [] then {} else .ofLabel attr.id

def linkFindings (target : Target) (content : List Inline) : Findings :=
  .ofUrl target.url (Text.trim (plainText content))

def citationFindings (attr : Attr) : Findings :=
  match attr.get? "data-cite" with
  | none => {}
  | some key => .ofCitation key

mutual

def observeInline : Inline → Findings
  | .link attr content target =>
    (citationFindings attr).combine ((linkFindings target content).combine (observeInlines content))
  | .span attr content => (labelFindings attr).combine (observeInlines content)
  | .styled _ content => observeInlines content
  | .quoted _ content => observeInlines content
  | .image _ content _ => observeInlines content
  | .crossRef _ content _ => observeInlines content
  | .note content => observeBlocks content
  | .text _ | .code .. | .space | .softBreak | .lineBreak | .math .. | .raw .. => {}

def observeInlines : List Inline → Findings
  | [] => {}
  | node :: more => (observeInline node).combine (observeInlines more)

def observeBlock : Block → Findings
  | .header _ attr content => (labelFindings attr).combine (observeInlines content)
  | .div attr content => (labelFindings attr).combine (observeBlocks content)
  | .para content => observeInlines content
  | .plain content => observeInlines content
  | .quote content => observeBlocks content
  | .bullets items => observeItems items
  | .numbered _ items => observeItems items
  | .code .. | .raw .. | .rule => {}

def observeBlocks : List Block → Findings
  | [] => {}
  | block :: more => (observeBlock block).combine (observeBlocks more)

def observeItems : List (List Block) → Findings
  | [] => {}
  | item :: more => (observeBlocks item).combine (observeItems more)

end

end TexCatalog
