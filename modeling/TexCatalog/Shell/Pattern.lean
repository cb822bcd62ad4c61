import TexCatalog.Text.Basic

/-!
# Patterns of scripts

A pattern is a text in which a star stands for any text, a question mark for any character and
brackets for one of several characters, unless they are quoted.
-/

namespace TexCatalog.Shell

structure Glyph where
  char : Char
  quoted : Bool
  deriving DecidableEq, Repr

namespace Glyph

def isBare (g : Glyph) (c : Char) : Bool := g.char == c && !g.quoted

end Glyph

inductive PatternItem where
  | one (c : Char)
  | any
  | many
  | among (negated : Bool) (ranges : List (Char × Char))
  deriving DecidableEq, Repr

abbrev Pattern := List PatternItem

namespace Pattern

def classRanges (name : Text) : List (Char × Char) :=
  if name = ("digit" : Text) then [('0', '9')]
  else if name = ("upper" : Text) then [('A', 'Z')]
  else if name = ("lower" : Text) then [('a', 'z')]
  else if name = ("alpha" : Text) then [('A', 'Z'), ('a', 'z')]
  else if name = ("alnum" : Text) then [('0', '9'), ('A', 'Z'), ('a', 'z')]
  else if name = ("xdigit" : Text) then [('0', '9'), ('A', 'F'), ('a', 'f')]
  else if name = ("space" : Text) then [('\t', '\r'), (' ', ' ')]
  else if name = ("blank" : Text) then [('\t', '\t'), (' ', ' ')]
  else if name = ("punct" : Text) then [('!', '/'), (':', '@'), ('[', '`'), ('\x7b', '~')]
  else if name = ("cntrl" : Text) then [('\x00', '\x1f'), ('\x7f', '\x7f')]
  else if name = ("print" : Text) then [(' ', '~')]
  else if name = ("graph" : Text) then [('!', '~')]
  else []

/-- The ranges in brackets up to the closing one, and the rest; a closing bracket at the `start` is
meant itself. -/
def ranges : Nat → Bool → List Glyph → Option (List (Char × Char) × List Glyph)
  | 0, _, _ => none
  | _, _, [] => none
  | fuel + 1, start, g :: s =>
    if g.isBare ']' ∧ !start then some ([], s)
    else
      match g.isBare '[', s with
      | true, ⟨':', _⟩ :: inner =>
        let name := inner.takeWhile fun g => g.char != ':'
        (ranges fuel false ((inner.drop name.length).drop 2)).map fun r =>
          (classRanges (name.map Glyph.char) ++ r.1, r.2)
      | _, ⟨'-', _⟩ :: high :: more =>
        if high.isBare ']' then (ranges fuel false s).map fun r => ((g.char, g.char) :: r.1, r.2)
        else (ranges fuel false more).map fun r => ((g.char, high.char) :: r.1, r.2)
      | _, _ => (ranges fuel false s).map fun r => ((g.char, g.char) :: r.1, r.2)

def ofGlyphs : Nat → List Glyph → Pattern
  | 0, _ => []
  | _, [] => []
  | fuel + 1, g :: s =>
    if g.isBare '*' then .many :: ofGlyphs fuel s
    else if g.isBare '?' then .any :: ofGlyphs fuel s
    else if g.isBare '[' then
      let negated := s.head?.any fun g => g.isBare '!' || g.isBare '^'
      match ranges s.length true (if negated then s.tail else s) with
      | some (rs, rest) => .among negated rs :: ofGlyphs fuel rest
      | none => .one '[' :: ofGlyphs fuel s
    else .one g.char :: ofGlyphs fuel s

def read (s : List Glyph) : Pattern := ofGlyphs s.length s

/-- A text and what is left of it behind each character. -/
def suffixes : Text → List Text
  | [] => [[]]
  | c :: s => (c :: s) :: suffixes s

def isMatch : Pattern → Text → Bool
  | [], s => s.isEmpty
  | .many :: more, s => (suffixes s).any (isMatch more)
  | _ :: _, [] => false
  | .one d :: more, c :: s => c == d && isMatch more s
  | .any :: more, _ :: s => isMatch more s
  | .among negated rs :: more, c :: s =>
    (rs.any fun r => r.1 ≤ c && c ≤ r.2) != negated && isMatch more s

def isSpecial (s : List Glyph) : Bool :=
  s.any fun g => g.isBare '*' || g.isBare '?' || g.isBare '['

/-- A text without what a pattern matches at its start. -/
def strip (longest : Bool) (p : Pattern) (s : Text) : Text :=
  let cuts := (List.range (s.length + 1)).filter fun n => p.isMatch (s.take n)
  match if longest then cuts.getLast? else cuts.head? with
  | some n => s.drop n
  | none => s

/-- A text without what a pattern matches at its end. -/
def stripEnd (longest : Bool) (p : Pattern) (s : Text) : Text :=
  let cuts := (List.range (s.length + 1)).filter fun n => p.isMatch (s.drop n)
  match if longest then cuts.head? else cuts.getLast? with
  | some n => s.take n
  | none => s

end Pattern

end TexCatalog.Shell
