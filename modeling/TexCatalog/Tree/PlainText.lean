import TexCatalog.Text.Blank
import TexCatalog.Tree.Basic

/-!
# Plain text

The plain text of inline content, and plain text as inline content. Raw nodes and notes have no
plain text; quotation marks are part of it.
-/

namespace TexCatalog

namespace QuoteKind

def opening : QuoteKind → Char
  | .single => '\u2018'
  | .double => '\u201c'

def closing : QuoteKind → Char
  | .single => '\u2019'
  | .double => '\u201d'

end QuoteKind

mutual

def Inline.plainText : Inline → Text
  | .text t => t
  | .code _ t => t
  | .math _ t => t
  | .styled _ content => plainText content
  | .span _ content => plainText content
  | .link _ content _ => plainText content
  | .image _ content _ => plainText content
  | .crossRef _ content _ => plainText content
  | .quoted kind content => kind.opening :: plainText content ++ [kind.closing]
  | .space | .softBreak | .lineBreak => [' ']
  | .raw .. | .note _ => []

def plainText : List Inline → Text
  | [] => []
  | node :: more => node.plainText ++ plainText more

end

def wordsToInlines (t : Text) : List Inline :=
  ((Text.words t).map Inline.text).intersperse .space

end TexCatalog
