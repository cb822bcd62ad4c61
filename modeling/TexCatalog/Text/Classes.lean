import TexCatalog.Text.Blank
import TexCatalog.Text.Tables.Classes

/-!
# Character classes

Letters, digits, word characters and printable characters, each over all of Unicode. The characters
that Unicode has gained last count as letters and are shown as they are, but they do not make words.
A message shows a text in quotation marks, with the characters that would not be seen escaped.
-/

namespace TexCatalog.Text

def isAlphanumeric (c : Char) : Bool := alphabetic.has c.toNat || number.has c.toNat

def isDecimalDigit (c : Char) : Bool := decimalDigit.has c.toNat && !recent.has c.toNat

def connector : Flips :=
  [0x5f, 0x60, 0x203f, 0x2041, 0x2054, 0x2055, 0xfe33, 0xfe35, 0xfe4d, 0xfe50, 0xff3f, 0xff40]

/-- The characters of which words are made: letters, marks, digits, connectors and joiners, the most
recent ones apart. -/
def isWordChar (c : Char) : Bool :=
  let n := c.toNat
  (alphabetic.has n || mark.has n || decimalDigit.has n || connector.has n ||
    n == 0x200c || n == 0x200d) && !recent.has n

def isFiller (c : Char) : Bool :=
  let n := c.toNat
  n == 0x115f || n == 0x1160 || n == 0x3164 || n == 0xffa0

/-- The half-width voicing marks, which follow a letter but have a place of their own. -/
def isSpacingMark (c : Char) : Bool :=
  let n := c.toNat
  n == 0xff9e || n == 0xff9f

/-- Characters that are shown as they are: printable ones that are neither blank nor drawn over the
character in front of them. -/
def isPlain (c : Char) : Bool :=
  !unprintable.has c.toNat && !isFiller c && (!graphemeExtend.has c.toNat || isSpacingMark c)

def quotedChar (c : Char) : Text :=
  if c = '"' ∨ c = '\\' then ['\\', c]
  else if c = '\n' then ['\\', 'n']
  else if c = '\r' then ['\\', 'r']
  else if c = '\t' then ['\\', 't']
  else if c.toNat = 0 then ['\\', '0']
  else if isPlain c then [c]
  else ['\\', 'u', '{'] ++ Nat.toDigits 16 c.toNat ++ ['}']

def quoted (s : Text) : Text := '"' :: s.flatMap quotedChar ++ ['"']

end TexCatalog.Text
