import TexCatalog.Diagnostics
import TexCatalog.Html.Grid
import TexCatalog.Html.Math
import TexCatalog.Site.Index
import TexCatalog.Tree.PlainText

/-!
# Page layout

The tree of a page is laid out as markup. Cross-references are looked up in the label index of the
site. The content of a note is laid out where it is referred to and collected; notes are numbered in
the order in which they are finished. Source text that nothing understood is shown and reported.
-/

namespace TexCatalog

/-- What the layout of a part of a page leaves behind besides its markup. -/
structure Leavings where
  notes : List (List Html) := []
  diagnostics : Diagnostics := []

namespace Leavings

def append (a b : Leavings) : Leavings := ⟨a.notes ++ b.notes, a.diagnostics ++ b.diagnostics⟩

end Leavings

def Layout (α : Type) : Type := Nat → α × Leavings

namespace Layout

variable {α β : Type}

def pure (a : α) : Layout α := fun _ => (a, {})

def bind (x : Layout α) (f : α → Layout β) : Layout β := fun n =>
  let r := x n
  let s := f r.1 (n + r.2.notes.length)
  (s.1, r.2.append s.2)

instance : Monad Layout where
  pure := Layout.pure
  bind := Layout.bind

def report (d : Diagnostic) : Layout Unit := fun _ => ((), { diagnostics := [d] })

def collect (content : Layout (List Html)) : Layout Nat := fun n =>
  let r := content n
  (n + r.2.notes.length + 1, { r.2 with notes := r.2.notes ++ [r.1] })

end Layout

/-- What a page is laid out with. -/
structure LayoutContext where
  stem : Text
  labels : LabelIndex
  records : RecordIndex
  math : MathBackend

namespace Attr

def plainKeys : List Text := ["title", "style", "lang", "dir"]

def attributeName (key : Text) : Text :=
  if ("data-" : Text).isPrefixOf key ∨ key ∈ plainKeys then key else "data-" ++ key

def toAttributes (attr : Attr) : List Html.Attribute :=
  (if attr.id = [] then [] else [⟨"id", attr.id⟩]) ++
    (if attr.classes = [] then [] else [⟨"class", Text.join " " attr.classes⟩]) ++
    attr.pairs.map fun p => ⟨attributeName p.1, p.2⟩

end Attr

namespace Layout

open Html (newline)

def headingTag (level : UInt8) : Html.Tag := .heading ⟨min (level.toNat - 1) 5, by omega⟩

def titleAttribute (title : Text) : List Html.Attribute :=
  if title = [] then [] else [⟨"title", title⟩]

def widthAttribute (attr : Attr) : List Html.Attribute :=
  match attr.get? "width" with
  | none => []
  | some width =>
    if width = ("auto" : Text) then [] else [⟨"style", "width: " ++ width ++ ";"⟩]

def imageAttributes (attr : Attr) (alt : Text) (target : Target) : List Html.Attribute :=
  [⟨"src", target.url⟩, ⟨"alt", alt⟩] ++ titleAttribute target.title ++ widthAttribute attr ++
    Attr.toAttributes { attr with pairs := attr.pairs.filter fun p => p.1 ≠ ("width" : Text) }

def icon? (attr : Attr) : Option Text :=
  if attr.hasClass "icon" then attr.get? "data-icon" else none

def layoutIcon (icon : Text) : Html :=
  .element .span [⟨"class", "icon icon-" ++ icon⟩, ⟨"aria-hidden", "true"⟩] []

def layoutCode (attr : Attr) (t : Text) : Html :=
  .element .pre []
    [.element .code
      (match attr.classes with
      | [] => []
      | language :: _ => [⟨"class", "language-" ++ language⟩])
      [.text t]]

def openStyle : Style → List Html → Html
  | .emphasis => .element .em []
  | .strong => .element .strong []
  | .underline => .element .u []
  | .strikeout => .element .del []
  | .superscript => .element .sup []
  | .subscript => .element .sub []
  | .smallCaps => .element .span [⟨"style", "font-variant: small-caps;"⟩]

def noteNumber (n : Nat) : Text := Text.ofNat n

def noteMark (n : Nat) : Html :=
  .element .sup [⟨"id", "fnref-" ++ noteNumber n⟩, ⟨"class", "footnote-ref"⟩]
    [.element .a [⟨"href", "#fn-" ++ noteNumber n⟩] [.text ("[" ++ noteNumber n ++ "]")]]

def noteItem (n : Nat) (content : List Html) : List Html :=
  [.element .li [⟨"id", "fn-" ++ noteNumber n⟩]
    (Html.trimEnd content ++
      [.text " ", .element .a
        [⟨"href", "#fnref-" ++ noteNumber n⟩, ⟨"class", "footnote-back"⟩] [.text ['\u21a9']]]),
    newline]

def noteItems : Nat → List (List Html) → List Html
  | _, [] => []
  | n, content :: more => noteItem n content ++ noteItems (n + 1) more

def noteSection (notes : List (List Html)) : List Html :=
  if notes.isEmpty then []
  else
    [.element .section [⟨"class", "footnotes"⟩]
      [newline, .void .hr [], newline, .element .ol [] (newline :: noteItems 1 notes), newline],
    newline]

def recordColumns : List Text := ["Name", "Category", "Year", "Rating"]

def recordField (fields : Fields) (name : Text) : Text := Text.trim ((fields.get? name).getD [])

def recordName (labels : LabelIndex) (id : Text) (fields : Fields) : Html :=
  match labels.get? id with
  | some entry => .element .a [⟨"href", entry.href⟩] [.text (recordField fields "Name")]
  | none => .text (recordField fields "Name")

def recordRow (labels : LabelIndex) (id : Text) (fields : Fields) : List Html :=
  [.element .tr [⟨"data-record", id⟩]
    (.element .td [] [recordName labels id fields] ::
      (recordColumns.tail.map fun name => .element .td [] [.text (recordField fields name)])),
    newline]

def recordTable (ctx : LayoutContext) : List Html :=
  [.element .table [⟨"class", "polynomial-table"⟩]
    [newline,
    .element .thead []
      [.element .tr [] (recordColumns.map fun name => .element .th [] [.text name])],
    newline,
    .element .tbody []
      (newline :: ctx.records.entries.flatMap fun e => recordRow ctx.labels e.1 e.2),
    newline],
  newline]

section

variable (ctx : LayoutContext)

def error (message : Text) : Layout Unit := .report ⟨.error, ctx.stem, message⟩

def layoutUnparsed (t : Text) : Layout (List Html) := do
  error ctx ("unparsed LaTeX at render time: " ++ Text.trim t)
  return [.element .code [⟨"class", "unparsed"⟩] [.text (Text.trim t)]]

def layoutTable (t : Text) : Layout (List Html) :=
  match Grid.ofText? t with
  | some grid => return [grid.toHtml]
  | none => layoutUnparsed ctx t

def layoutRawInline (format : Format) (t : Text) : Layout (List Html) :=
  if format.isTable then layoutTable ctx t
  else if format.isTex then layoutUnparsed ctx t
  else if format.isHtml then return [.raw t]
  else return []

def layoutRawBlock (format : Format) (t : Text) : Layout (List Html) := do
  if format.isTable then return (← layoutTable ctx t) ++ [newline]
  else if format.isTex then return [.element .p [] (← layoutUnparsed ctx t), newline]
  else if format.isHtml then return [.raw t, newline]
  else return []

/-- Where a cross-reference points; an unknown label is reported. -/
def layoutTarget (label text : Text) : Layout Text :=
  match LabelIndex.resolve ctx.labels label with
  | .resolved href => return href
  | .deferred label => do
    error ctx
      ("unresolved label " ++ label ++ " (link text " ++ Text.quoted (Text.trim text) ++ ")")
    return '#' :: label

def labelTitle (label : Text) : Text :=
  match ctx.labels.get? label with
  | some entry => entry.title
  | none => label

def layoutSpecial (attr : Attr) : Layout (List Html) :=
  let kind := (attr.get? "block").getD []
  if kind = ("polynomialtable" : Text) then return recordTable ctx
  else do
    error ctx ("unknown special block " ++ Text.quoted kind)
    return []

mutual

def layoutInline : Inline → Layout (List Html)
  | .text t => return [.text t]
  | .styled style content => do return [openStyle style (← layoutInlines content)]
  | .quoted kind content => do
    let content ← layoutInlines content
    return .text [kind.opening] :: content ++ [.text [kind.closing]]
  | .code _ t => return [.element .code [] [.text t]]
  | .space => return [.text [' ']]
  | .softBreak => return [newline]
  | .lineBreak => return [.void .br [], newline]
  | .math .inline t => return [ctx.math.inline t]
  | .math .display t => return [ctx.math.display t]
  | .raw format t => layoutRawInline ctx format t
  | .link attr content target => do
    let content ← layoutInlines content
    return [.element .a
      (⟨"href", target.url⟩ :: titleAttribute target.title ++ attr.toAttributes) content]
  | .image attr content target =>
    return [.void .img (imageAttributes attr (plainText content) target)]
  | .note content => do return [noteMark (← Layout.collect (layoutBlocks content))]
  | .span attr content =>
    match icon? attr with
    | some icon => return [layoutIcon icon]
    | none => do return [.element .span attr.toAttributes (← layoutInlines content)]
  | .crossRef attr content label => do
    let href ← layoutTarget ctx label (plainText content)
    let shown ← layoutInlines content
    return [.element .a (⟨"href", href⟩ :: (attr.addClass "crossref").toAttributes)
      (if content.isEmpty then [.text (labelTitle ctx label)] else shown)]

def layoutInlines : List Inline → Layout (List Html)
  | [] => return []
  | node :: more => do
    let markup ← layoutInline node
    return markup ++ (← layoutInlines more)

def layoutBlock : Block → Layout (List Html)
  | .plain content => do return (← layoutInlines content) ++ [newline]
  | .para content => do return [.element .p [] (← layoutInlines content), newline]
  | .header level attr content => do
    return [.element (headingTag level) attr.toAttributes (← layoutInlines content), newline]
  | .code attr t => return [layoutCode attr t, newline]
  | .raw format t => layoutRawBlock ctx format t
  | .quote content => do
    return [.element .blockquote [] (newline :: (← layoutBlocks content)), newline]
  | .bullets items => do
    return [.element .ul [] (newline :: (← layoutItems items)), newline]
  | .numbered numbering items => do
    let attrs :=
      if numbering.start = 1 then [] else [⟨"start", Text.ofInt numbering.start.toInt⟩]
    return [.element .ol attrs (newline :: (← layoutItems items)), newline]
  | .rule => return [.void .hr [], newline]
  | .div attr content =>
    if attr.hasClass "special-block" then layoutSpecial ctx attr
    else if attr.hasClass "collapsible" then do
      return [.element .details attr.toAttributes (newline :: (← layoutDetails content)), newline]
    else do
      let markup ← layoutBlocks content
      return [.element (if attr.hasClass "figure" then .figure else .div) attr.toAttributes
        (if content.isEmpty then [] else newline :: markup), newline]

def layoutDetails : List Block → Layout (List Html)
  | .para heading :: more => do
    let summary ← layoutInlines heading
    return .element .summary [] summary :: newline :: (← layoutBlocks more)
  | block :: more => do
    let markup ← layoutBlock block
    return .element .summary [] [] :: newline :: markup ++ (← layoutBlocks more)
  | [] => return [.element .summary [] [], newline]

def layoutBlocks : List Block → Layout (List Html)
  | [] => return []
  | block :: more => do
    let markup ← layoutBlock block
    return markup ++ (← layoutBlocks more)

/-- An only paragraph of a list item is laid out without an element of its own. -/
def layoutItem : List Block → Layout (List Html)
  | [.para content] => layoutInlines content
  | [.plain content] => layoutInlines content
  | block :: more => do
    let markup ← layoutBlock block
    return markup ++ (← layoutBlocks more)
  | [] => return []

def layoutItems : List (List Block) → Layout (List Html)
  | [] => return []
  | item :: more => do
    let markup ← layoutItem item
    return .element .li [] markup :: newline :: (← layoutItems more)

end

end

end Layout

end TexCatalog
