import TexCatalog.Text.Basic

/-!
# Blanks

A blank is a character with the Unicode property White_Space. Trimming and the division into words
go by blanks; the readers of groups and of field lists skip only the four layout characters.
-/

namespace Char

def isBlank (c : Char) : Bool :=
  let n := c.toNat
  (9 ≤ n && n ≤ 13) || n == 0x20 || n == 0x85 || n == 0xA0 || n == 0x1680 ||
    (0x2000 ≤ n && n ≤ 0x200A) || n == 0x2028 || n == 0x2029 || n == 0x202F ||
    n == 0x205F || n == 0x3000

def isLayout (c : Char) : Bool :=
  c == ' ' || c == '\t' || c == '\r' || c == '\n'

end Char

namespace TexCatalog

namespace Text

def trimStart (s : Text) : Text := s.dropWhile Char.isBlank

def trimEnd (s : Text) : Text := (s.reverse.dropWhile Char.isBlank).reverse

def trim (s : Text) : Text := trimEnd (trimStart s)

def words (s : Text) : List Text := (splitWhere Char.isBlank s).filter (· ≠ [])

def squeeze (s : Text) : Text := join [' '] (words s)

def isBlank (s : Text) : Bool := s.all Char.isBlank

def dropLayout (s : Text) : Text := s.dropWhile Char.isLayout

theorem length_trimStart_le (s : Text) : (trimStart s).length ≤ s.length :=
  length_dropWhile_le _ s

theorem length_dropLayout_le (s : Text) : (dropLayout s).length ≤ s.length :=
  length_dropWhile_le _ s

end Text

end TexCatalog
