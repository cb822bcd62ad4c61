import TexCatalog.Html.Escape
import TexCatalog.Text.Blank

/-!
# Markup

Markup is a list of trees, so elements are nested by construction. Text and attribute values are
escaped when markup is printed; only a raw node is printed as it is.
-/

namespace TexCatalog

namespace Html

inductive Tag where
  | a | blockquote | code | del | details | div | em | figure | li | ol | p | pre | section | span
  | strong | sub | summary | sup | table | tbody | td | th | thead | tr | u | ul
  | heading (level : Fin 6)
  deriving DecidableEq, Repr

inductive VoidTag where
  | br | hr | img
  deriving DecidableEq, Repr

def Tag.name : Tag → Text
  | .a => "a"
  | .blockquote => "blockquote"
  | .code => "code"
  | .del => "del"
  | .details => "details"
  | .div => "div"
  | .em => "em"
  | .figure => "figure"
  | .li => "li"
  | .ol => "ol"
  | .p => "p"
  | .pre => "pre"
  | .section => "section"
  | .span => "span"
  | .strong => "strong"
  | .sub => "sub"
  | .summary => "summary"
  | .sup => "sup"
  | .table => "table"
  | .tbody => "tbody"
  | .td => "td"
  | .th => "th"
  | .thead => "thead"
  | .tr => "tr"
  | .u => "u"
  | .ul => "ul"
  | .heading level => 'h' :: Text.ofNat (level.val + 1)

def VoidTag.name : VoidTag → Text
  | .br => "br"
  | .hr => "hr"
  | .img => "img"

structure Attribute where
  name : Text
  value : Text
  deriving DecidableEq, Repr

end Html

/-- A piece of markup. -/
inductive Html where
  | text (t : Text)
  | raw (t : Text)
  | element (tag : Html.Tag) (attrs : List Html.Attribute) (content : List Html)
  | void (tag : Html.VoidTag) (attrs : List Html.Attribute)

namespace Html

def newline : Html := .text ['\n']

def printAttribute (a : Attribute) : Text :=
  ' ' :: escape a.name ++ "=\"" ++ escape a.value ++ "\""

def printAttributes (attrs : List Attribute) : Text := attrs.flatMap printAttribute

mutual

def print : Html → Text
  | .text t => escape t
  | .raw t => t
  | .element tag attrs content =>
    '<' :: tag.name ++ printAttributes attrs ++ '>' :: printAll content ++ "</" ++ tag.name ++ ">"
  | .void tag attrs => '<' :: tag.name ++ printAttributes attrs ++ ">"

def printAll : List Html → Text
  | [] => []
  | node :: more => node.print ++ printAll more

end

/-- A text without the blanks at its end, if anything is left. -/
def trimText (make : Text → Html) (t : Text) : List Html :=
  if Text.isBlank t then [] else [make (Text.trimEnd t)]

def trimEnd : List Html → List Html
  | [] => []
  | node :: more =>
    match trimEnd more with
    | [] =>
      match node with
      | .text t => trimText .text t
      | .raw t => trimText .raw t
      | node => [node]
    | rest => node :: rest

end Html

end TexCatalog
