import TexCatalog.Walk.Flatten
import TexCatalog.Walk.Observe
import TexCatalog.Form.Block

/-!
# Walking a tree

A walk goes over a tree once. Raw nodes of page source are given to an expander, internal links
become cross-references, and every label and link that is passed is noted. What a form makes of its
arguments is walked by the same rules one level deeper, so the expander is built level by level.
-/

namespace TexCatalog

/-- What becomes of raw page source in the place of a block and in running text; `none` where no
form of running text expands it. -/
structure Expander where
  block : Text → Walk (List Block)
  inline : Text → Walk (Option (List Inline))

/-- The raw text of a paragraph that holds one raw node of page source and blanks besides. -/
def loneRaw? : List Inline → Option Text
  | [] => none
  | .space :: more => loneRaw? more
  | .softBreak :: more => loneRaw? more
  | .raw format t :: more =>
    if format.isTex && more.all fun node => node matches .space | .softBreak then some t else none
  | _ :: _ => none

def excerpt (text : Text) : Text :=
  let text := Text.trim text
  if 60 < text.length then text.take 60 ++ "..." else text

/-- A link to a label of the site becomes a cross-reference, unless it is a citation. -/
def resolveLink (attr : Attr) (content : List Inline) (target : Target) : Inline :=
  match target.url with
  | '#' :: c :: label =>
    if (attr.get? "data-cite").isNone then
      .crossRef (if target.title = [] then attr else attr.set "title" target.title) content
        (c :: label)
    else .link attr content target
  | _ => .link attr content target

section

variable (stem : Text) (forms : Expander)

def walkRaw (format : Format) (text : Text) : Walk (List Inline) := do
  match ← forms.inline text with
  | some nodes => return nodes
  | none =>
    .report ⟨.warning, stem, "unrecognized inline macro: " ++ excerpt text⟩
    return [.raw format text]

mutual

def walkInline : Inline → Walk (List Inline)
  | .raw format text =>
    if format.isTex then walkRaw stem forms format text else return [.raw format text]
  | .link attr content target => do
    let content ← walkInlines content
    .note (linkFindings target content)
    return [resolveLink attr content target]
  | .span attr content => do
    .note (labelFindings attr)
    return [.span attr (← walkInlines content)]
  | .styled style content => do return [.styled style (← walkInlines content)]
  | .quoted kind content => do return [.quoted kind (← walkInlines content)]
  | .image attr content target => do return [.image attr (← walkInlines content) target]
  | .crossRef attr content label => do return [.crossRef attr (← walkInlines content) label]
  | .note content => do return [.note (← walkBlocks content)]
  | .text t => return [.text t]
  | .code attr t => return [.code attr t]
  | .space => return [.space]
  | .softBreak => return [.softBreak]
  | .lineBreak => return [.lineBreak]
  | .math kind t => return [.math kind t]

def walkInlines : List Inline → Walk (List Inline)
  | [] => return []
  | node :: more => do
    let nodes ← walkInline node
    return nodes ++ (← walkInlines more)

def walkBlock : Block → Walk (List Block)
  | .raw format text => if format.isTex then forms.block text else return [.raw format text]
  | .para content =>
    match loneRaw? content with
    | some text => forms.block text
    | none => do return [.para (← walkInlines content)]
  | .plain content => do return [.plain (← walkInlines content)]
  | .header level attr content => do
    .note (labelFindings attr)
    return [.header level attr (← walkInlines content)]
  | .div attr content => do
    .note (labelFindings attr)
    return [.div attr (← walkBlocks content)]
  | .quote content => do return [.quote (← walkBlocks content)]
  | .bullets items => do return [.bullets (← walkItems items)]
  | .numbered numbering items => do return [.numbered numbering (← walkItems items)]
  | .code attr t => return [.code attr t]
  | .rule => return [.rule]

def walkBlocks : List Block → Walk (List Block)
  | [] => return []
  | block :: more => do
    let blocks ← walkBlock block
    return blocks ++ (← walkBlocks more)

def walkItems : List (List Block) → Walk (List (List Block))
  | [] => return []
  | item :: more => do
    let item ← walkBlocks item
    return item :: (← walkItems more)

end

end

end TexCatalog
