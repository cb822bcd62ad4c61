import TexCatalog.Tree.Attr

/-!
# Document trees

A page is a list of blocks. Blocks hold blocks or inline content, and a note puts blocks into
inline content again, so the two kinds of node are defined together. What a reader does not
understand stays in a raw node with its source text.
-/

namespace TexCatalog

structure Target where
  url : Text
  title : Text := []
  deriving DecidableEq, Repr

structure Format where
  name : Text
  deriving DecidableEq, Repr

namespace Format

def tex : Format := ⟨"tex"⟩

def table : Format := ⟨"latextable"⟩

/-- Source text is tagged `tex`, or `latex` by an external reader. -/
def isTex (f : Format) : Bool := f.name == ("tex" : Text) || f.name == ("latex" : Text)

def isTable (f : Format) : Bool := f.name == ("latextable" : Text)

def isHtml (f : Format) : Bool := f.name == ("html" : Text)

end Format

inductive MathKind where
  | display
  | inline
  deriving DecidableEq, Repr

inductive QuoteKind where
  | single
  | double
  deriving DecidableEq, Repr

inductive Style where
  | emphasis
  | strong
  | underline
  | strikeout
  | superscript
  | subscript
  | smallCaps
  deriving DecidableEq, Repr

inductive NumberStyle where
  | default
  | example
  | decimal
  | lowerRoman
  | upperRoman
  | lowerAlpha
  | upperAlpha
  deriving DecidableEq, Repr

inductive NumberDelim where
  | default
  | period
  | oneParen
  | twoParens
  deriving DecidableEq, Repr

structure Numbering where
  start : Int32
  style : NumberStyle
  delim : NumberDelim
  deriving DecidableEq, Repr

mutual

/-- A piece of running text. -/
inductive Inline where
  | text (t : Text)
  | styled (style : Style) (content : List Inline)
  | quoted (kind : QuoteKind) (content : List Inline)
  | code (attr : Attr) (t : Text)
  | space
  | softBreak
  | lineBreak
  | math (kind : MathKind) (t : Text)
  | raw (format : Format) (t : Text)
  | link (attr : Attr) (content : List Inline) (target : Target)
  | image (attr : Attr) (content : List Inline) (target : Target)
  | note (content : List Block)
  | span (attr : Attr) (content : List Inline)
  | crossRef (attr : Attr) (content : List Inline) (label : Text)

/-- A piece of a page that stands on its own lines. -/
inductive Block where
  | plain (content : List Inline)
  | para (content : List Inline)
  | header (level : UInt8) (attr : Attr) (content : List Inline)
  | code (attr : Attr) (t : Text)
  | raw (format : Format) (t : Text)
  | quote (content : List Block)
  | bullets (items : List (List Block))
  | numbered (numbering : Numbering) (items : List (List Block))
  | rule
  | div (attr : Attr) (content : List Block)

end

end TexCatalog
