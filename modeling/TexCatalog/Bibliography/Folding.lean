import TexCatalog.Text.Basic

/-!
# Folding to ASCII

Accented letters lose their accents and ligatures become two letters. Of the rest, a folded text
keeps ASCII letters and digits, plus signs, square brackets and hyphens.
-/

namespace TexCatalog.Bibliography

structure Folding where
  letters : Text
  result : Text

def foldings : List Folding :=
  [
    ⟨"àáâãäåāăą", "a"⟩,
    ⟨"ÀÁÂÃÄÅĀĂĄ", "A"⟩,
    ⟨"æ", "ae"⟩,
    ⟨"Æ", "AE"⟩,
    ⟨"çćč", "c"⟩,
    ⟨"ÇĆČ", "C"⟩,
    ⟨"ďđ", "d"⟩,
    ⟨"ĎĐ", "D"⟩,
    ⟨"èéêëēęě", "e"⟩,
    ⟨"ÈÉÊËĒĘĚ", "E"⟩,
    ⟨"ğ", "g"⟩,
    ⟨"Ğ", "G"⟩,
    ⟨"ìíîïīı", "i"⟩,
    ⟨"ÌÍÎÏĪİ", "I"⟩,
    ⟨"ł", "l"⟩,
    ⟨"Ł", "L"⟩,
    ⟨"ñńň", "n"⟩,
    ⟨"ÑŃŇ", "N"⟩,
    ⟨"òóôõöøőō", "o"⟩,
    ⟨"ÒÓÔÕÖØŐŌ", "O"⟩,
    ⟨"œ", "oe"⟩,
    ⟨"Œ", "OE"⟩,
    ⟨"ř", "r"⟩,
    ⟨"Ř", "R"⟩,
    ⟨"śšşș", "s"⟩,
    ⟨"ŚŠŞȘ", "S"⟩,
    ⟨"ß", "ss"⟩,
    ⟨"ťţț", "t"⟩,
    ⟨"ŤŢȚ", "T"⟩,
    ⟨"ùúûüůűū", "u"⟩,
    ⟨"ÙÚÛÜŮŰŪ", "U"⟩,
    ⟨"ýÿ", "y"⟩,
    ⟨"ÝŸ", "Y"⟩,
    ⟨"žźż", "z"⟩,
    ⟨"ŽŹŻ", "Z"⟩,
    ⟨"þ", "th"⟩,
    ⟨"Þ", "Th"⟩,
    ⟨"ð", "d"⟩,
    ⟨"Ð", "D"⟩]

def isKept (c : Char) : Bool :=
  c.isAlphanum || c == '+' || c == '[' || c == ']' || c == '-'

def foldChar (c : Char) : Text :=
  match foldings.find? fun row => row.letters.contains c with
  | some row => row.result
  | none => if isKept c then [c] else []

/-- The text in ASCII letters and digits, `+`, `[`, `]` and `-`. -/
def foldAscii (s : Text) : Text := s.flatMap foldChar

end TexCatalog.Bibliography
