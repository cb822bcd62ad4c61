import TexCatalog.Shell.Pattern
import TexCatalog.Shell.State

/-!
# Fields

The words of a command are filled in to pieces, and the pieces are parted into the fields that the
command gets. What comes from a parameter or a script is parted at separators, and a field with a
pattern stands for the files that it matches.
-/

namespace TexCatalog.Shell

inductive Piece where
  /-- A character; it may be a separator if it is `parted`. -/
  | char (c : Char) (quoted parted : Bool)
  /-- There is a field here, even if nothing is in it. -/
  | mark
  | gap

namespace Piece

def ofText (quoted : Bool) (t : Text) : List Piece := t.map fun c => .char c quoted false

def ofValue (quoted : Bool) (t : Text) : List Piece := t.map fun c => .char c quoted (!quoted)

def toValue : Piece → Piece
  | .char c quoted _ => .char c quoted (!quoted)
  | piece => piece

def ofArguments (quoted : Bool) : List Text → List Piece
  | [] => []
  | [t] => if quoted then .mark :: ofValue quoted t else ofValue quoted t
  | t :: more =>
    (if quoted then .mark :: ofValue quoted t else ofValue quoted t) ++
      .gap :: ofArguments quoted more

def glyphs (pieces : List Piece) : List Glyph :=
  pieces.filterMap fun
    | .char c quoted _ => some ⟨c, quoted⟩
    | .gap => some ⟨' ', true⟩
    | .mark => none

def toText (pieces : List Piece) : Text := (glyphs pieces).map Glyph.char

def isSpace (c : Char) : Bool := c == ' ' || c == '\t' || c == '\n'

/-- Part pieces at separators. `field` is the field that has begun, backwards; `spaced` says that
spaces have ended one. -/
def fields (separators : Text) : Option (List Glyph) → Bool → List Piece → List (List Glyph)
  | field, _, [] => (field.map List.reverse).toList
  | field, _, .mark :: more => fields separators (some (field.getD [])) false more
  | field, _, .gap :: more =>
    (field.map List.reverse).toList ++ fields separators none false more
  | field, spaced, .char c quoted parted :: more =>
    if parted ∧ separators.contains c then
      match field with
      | some field => field.reverse :: fields separators none (isSpace c) more
      | none =>
        if isSpace c ∨ spaced then fields separators none (spaced && isSpace c) more
        else [] :: fields separators none false more
    else fields separators (some (⟨c, quoted⟩ :: field.getD [])) false more

end Piece

namespace State

def pathParts (glyphs : List Glyph) : List (List Glyph) :=
  match glyphs with
  | [] => [[]]
  | g :: more =>
    if g.char = '/' then [] :: pathParts more
    else
      match pathParts more with
      | [] => [[g]]
      | part :: parts => (g :: part) :: parts

def pathsFrom (st : State) : List (List Glyph) → List Text → List Text
  | [], starts => starts
  | part :: parts, starts =>
    let fixed := part.map Glyph.char
    let next := starts.flatMap fun start =>
      if Pattern.isSpecial part then
        let directory : Text := if start = [] then ['.'] else start
        match st.store.list (st.pathOf directory) with
        | .error _ => []
        | .ok entries =>
          ((entries.map fun e => Text.encode e.1).filter fun name =>
            (name.head? != some '.' || fixed.head? == some '.') &&
              (Pattern.read part).isMatch name).map (start ++ ·)
      else [start ++ fixed]
    if parts.isEmpty then next else pathsFrom st parts (next.map (· ++ ['/']))

/-- What a field stands for: the paths that it matches if it is a pattern, else its text. -/
def pathsOf (st : State) (field : List Glyph) : List Text :=
  let fixed := field.map Glyph.char
  if Pattern.isSpecial field then
    match (st.pathsFrom (pathParts field) [[]]).filter fun path =>
        (st.store.node? (st.pathOf path)).isSome with
    | [] => [fixed]
    | paths => paths
  else [fixed]

def fieldsOf (st : State) (pieces : List Piece) : List Text :=
  (Piece.fields st.separators none false pieces).flatMap st.pathsOf

end State

end TexCatalog.Shell
