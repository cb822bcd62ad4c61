import TexCatalog.Json.Shape
import TexCatalog.Tree.Basic

/-!
# Trees as JSON

A node is written as an object with its kind under `t` and its contents under `c`; kinds without
contents have no `c`. Several contents form an array. The parts of nodes are read here as well.
-/

namespace TexCatalog

namespace Attr

def toJson (a : Attr) : Json :=
  .arr [.str a.id, Json.ofList .str a.classes,
    Json.ofList (fun p => .arr [.str p.1, .str p.2]) a.pairs]

def ofDraft (d : Json.Draft) : Json.Decoded Attr := do
  let (id, classes, pairs) ← d.triple Json.Draft.text (·.list Json.Draft.text)
    (·.list (·.pair Json.Draft.text Json.Draft.text))
  return { id, classes, pairs }

end Attr

namespace Target

def toJson (t : Target) : Json := .arr [.str t.url, .str t.title]

def ofDraft (d : Json.Draft) : Json.Decoded Target := do
  let (url, title) ← d.pair Json.Draft.text Json.Draft.text
  return { url, title }

end Target

namespace Format

def toJson (f : Format) : Json := .str f.name

def ofDraft (d : Json.Draft) : Json.Decoded Format := do return ⟨← d.text⟩

end Format

namespace MathKind

def tag : MathKind → Text
  | .display => "DisplayMath"
  | .inline => "InlineMath"

def tags : List (Text × MathKind) := ([.display, .inline] : List MathKind).map fun k => (k.tag, k)

end MathKind

namespace QuoteKind

def tag : QuoteKind → Text
  | .single => "SingleQuote"
  | .double => "DoubleQuote"

def tags : List (Text × QuoteKind) := ([.single, .double] : List QuoteKind).map fun k => (k.tag, k)

end QuoteKind

namespace NumberStyle

def tag : NumberStyle → Text
  | .default => "DefaultStyle"
  | .example => "Example"
  | .decimal => "Decimal"
  | .lowerRoman => "LowerRoman"
  | .upperRoman => "UpperRoman"
  | .lowerAlpha => "LowerAlpha"
  | .upperAlpha => "UpperAlpha"

def all : List NumberStyle :=
  [.default, .example, .decimal, .lowerRoman, .upperRoman, .lowerAlpha, .upperAlpha]

def tags : List (Text × NumberStyle) := all.map fun k => (k.tag, k)

end NumberStyle

namespace NumberDelim

def tag : NumberDelim → Text
  | .default => "DefaultDelim"
  | .period => "Period"
  | .oneParen => "OneParen"
  | .twoParens => "TwoParens"

def all : List NumberDelim := [.default, .period, .oneParen, .twoParens]

def tags : List (Text × NumberDelim) := all.map fun k => (k.tag, k)

end NumberDelim

namespace Numbering

def toJson (n : Numbering) : Json :=
  .arr [Json.int n.start.toInt, Json.plainTag n.style.tag, Json.plainTag n.delim.tag]

def ofDraft (r : Json.Draft.Reading) (d : Json.Draft) : Json.Decoded Numbering := do
  let (start, style, delim) ← d.triple (·.intWithin Int32.minValue.toInt Int32.maxValue.toInt)
    (·.plainTag NumberStyle.tags r) (·.plainTag NumberDelim.tags r)
  return { start := Int32.ofInt start, style, delim }

end Numbering

inductive InlineKind where
  | text
  | styled (style : Style)
  | quoted
  | code
  | space
  | softBreak
  | lineBreak
  | math
  | raw
  | link
  | image
  | note
  | span
  | crossRef
  deriving DecidableEq, Repr

namespace InlineKind

def tag : InlineKind → Text
  | .text => "Str"
  | .styled .emphasis => "Emph"
  | .styled .strong => "Strong"
  | .styled .underline => "Underline"
  | .styled .strikeout => "Strikeout"
  | .styled .superscript => "Superscript"
  | .styled .subscript => "Subscript"
  | .styled .smallCaps => "SmallCaps"
  | .quoted => "Quoted"
  | .code => "Code"
  | .space => "Space"
  | .softBreak => "SoftBreak"
  | .lineBreak => "LineBreak"
  | .math => "Math"
  | .raw => "RawInline"
  | .link => "Link"
  | .image => "Image"
  | .note => "Note"
  | .span => "Span"
  | .crossRef => "CrossRef"

def all : List InlineKind :=
  [.text, .styled .emphasis, .styled .strong, .styled .underline, .styled .strikeout,
    .styled .superscript, .styled .subscript, .styled .smallCaps, .quoted, .code, .space,
    .softBreak, .lineBreak, .math, .raw, .link, .image, .note, .span, .crossRef]

def tags : List (Text × InlineKind) := all.map fun k => (k.tag, k)

end InlineKind

inductive BlockKind where
  | plain
  | para
  | header
  | code
  | raw
  | quote
  | bullets
  | numbered
  | rule
  | div
  deriving DecidableEq, Repr

namespace BlockKind

def tag : BlockKind → Text
  | .plain => "Plain"
  | .para => "Para"
  | .header => "Header"
  | .code => "CodeBlock"
  | .raw => "RawBlock"
  | .quote => "BlockQuote"
  | .bullets => "BulletList"
  | .numbered => "OrderedList"
  | .rule => "HorizontalRule"
  | .div => "Div"

def all : List BlockKind :=
  [.plain, .para, .header, .code, .raw, .quote, .bullets, .numbered, .rule, .div]

def tags : List (Text × BlockKind) := all.map fun k => (k.tag, k)

end BlockKind

mutual

def Inline.toJson : Inline → Json
  | .text t => Json.tagged InlineKind.text.tag (.str t)
  | .styled style content =>
    Json.tagged (InlineKind.styled style).tag (.arr (inlineItems content))
  | .quoted kind content =>
    Json.tagged InlineKind.quoted.tag
      (.arr [Json.plainTag kind.tag, .arr (inlineItems content)])
  | .code attr t => Json.tagged InlineKind.code.tag (.arr [attr.toJson, .str t])
  | .space => Json.plainTag InlineKind.space.tag
  | .softBreak => Json.plainTag InlineKind.softBreak.tag
  | .lineBreak => Json.plainTag InlineKind.lineBreak.tag
  | .math kind t => Json.tagged InlineKind.math.tag (.arr [Json.plainTag kind.tag, .str t])
  | .raw format t => Json.tagged InlineKind.raw.tag (.arr [format.toJson, .str t])
  | .link attr content target =>
    Json.tagged InlineKind.link.tag
      (.arr [attr.toJson, .arr (inlineItems content), target.toJson])
  | .image attr content target =>
    Json.tagged InlineKind.image.tag
      (.arr [attr.toJson, .arr (inlineItems content), target.toJson])
  | .note content => Json.tagged InlineKind.note.tag (.arr (blockItems content))
  | .span attr content =>
    Json.tagged InlineKind.span.tag (.arr [attr.toJson, .arr (inlineItems content)])
  | .crossRef attr content label =>
    Json.tagged InlineKind.crossRef.tag
      (.arr [attr.toJson, .arr (inlineItems content), .str label])

def inlineItems : List Inline → List Json
  | [] => []
  | node :: more => node.toJson :: inlineItems more

def Block.toJson : Block → Json
  | .plain content => Json.tagged BlockKind.plain.tag (.arr (inlineItems content))
  | .para content => Json.tagged BlockKind.para.tag (.arr (inlineItems content))
  | .header level attr content =>
    Json.tagged BlockKind.header.tag
      (.arr [Json.nat level.toNat, attr.toJson, .arr (inlineItems content)])
  | .code attr t => Json.tagged BlockKind.code.tag (.arr [attr.toJson, .str t])
  | .raw format t => Json.tagged BlockKind.raw.tag (.arr [format.toJson, .str t])
  | .quote content => Json.tagged BlockKind.quote.tag (.arr (blockItems content))
  | .bullets items => Json.tagged BlockKind.bullets.tag (.arr (listItems items))
  | .numbered numbering items =>
    Json.tagged BlockKind.numbered.tag (.arr [numbering.toJson, .arr (listItems items)])
  | .rule => Json.plainTag BlockKind.rule.tag
  | .div attr content =>
    Json.tagged BlockKind.div.tag (.arr [attr.toJson, .arr (blockItems content)])

def blockItems : List Block → List Json
  | [] => []
  | block :: more => block.toJson :: blockItems more

def listItems : List (List Block) → List Json
  | [] => []
  | item :: more => .arr (blockItems item) :: listItems more

end

def inlinesToJson (content : List Inline) : Json := .arr (inlineItems content)

def blocksToJson (content : List Block) : Json := .arr (blockItems content)

end TexCatalog
