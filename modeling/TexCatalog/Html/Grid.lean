import TexCatalog.Html.Tree
import TexCatalog.Source.Environment
import TexCatalog.Source.Split

/-!
# Tables

The shorthands for tables are laid out as a grid. Rows end at `\\` and cells at `&`, both outside
groups; rules are dropped, and a cell `none` is left out of the shape. Column specifications and
options are read but not used.
-/

namespace TexCatalog

inductive Grid.Kind where
  | ytableau
  | array
  | rtabular
  | ytab
  deriving DecidableEq, Repr

inductive Grid.Cell where
  | blank
  | text (t : Text)
  deriving DecidableEq, Repr

structure Grid where
  kind : Grid.Kind
  rows : List (List Grid.Cell)
  deriving DecidableEq, Repr

namespace Grid

def Kind.name : Kind → Text
  | .ytableau => "ytableau"
  | .array => "array"
  | .rtabular => "rtabular"
  | .ytab => "ytab"

def ofEnvironment? (e : Source.Environment) : Option (Kind × Text) :=
  if e.name = Kind.ytableau.name then
    some (.ytableau, ((Source.spacedBracketed? e.body).map Prod.snd).getD e.body)
  else if e.name = Kind.array.name then
    (Source.spacedBraced? e.body).map fun p => (.array, p.2)
  else if e.name = Kind.rtabular.name then
    (Source.spacedBraced? e.body).map fun p => (.rtabular, p.2)
  else none

def ofCommand? (s : Text) : Option (Kind × Text) :=
  match Source.commandName? s with
  | none => none
  | some (name, rest) =>
    if name = Kind.ytab.name then
      match Source.spacedBraced? rest with
      | some (body, rest) => if Text.isBlank rest then some (.ytab, body) else none
      | none => none
    else none

def body? (s : Text) : Option (Kind × Text) :=
  match Source.environment? s with
  | some (e, rest) => if Text.isBlank rest then ofEnvironment? e else none
  | none => ofCommand? s

def cell (s : Text) : Cell :=
  if Text.trim s = ("none" : Text) then .blank else .text (Text.trim s)

def plainRow (s : Text) : Text := Text.trim (Text.replace "\\hline" [] s)

def readRows (body : Text) : List (List Cell) :=
  (((Source.splitTopLevel "\\\\" body).map plainRow).filter (· ≠ [])).map fun row =>
    (Source.splitTopLevel "&" row).map cell

def ofText? (s : Text) : Option Grid :=
  (body? (Text.trim s)).map fun p => ⟨p.1, readRows p.2⟩

def Cell.toHtml : Cell → Html
  | .blank => .element .td [⟨"class", "none"⟩] []
  | .text t => .element .td [] [.text t]

def toHtml (g : Grid) : Html :=
  .element .table [⟨"class", "latextable " ++ g.kind.name⟩]
    (.newline :: g.rows.flatMap fun row =>
      [.element .tr [] (row.map Cell.toHtml), .newline])

end Grid

end TexCatalog
