import TexCatalog.Failure
import TexCatalog.Text.Blank
import TexCatalog.Text.Map

/-!
# Page templates

A template is a text with slots, each a name in two pairs of braces. Filling a template is one pass
from the left: the values put in are not looked at again, and a slot without a value stays.
-/

namespace TexCatalog

/-- A page template. -/
structure Template where
  source : Text
  deriving DecidableEq, Repr

namespace Template

inductive Piece where
  | char (c : Char)
  | slot (name spelling : Text)
  deriving DecidableEq, Repr

def isNameChar (c : Char) : Bool := c.isAlpha || c == '_'

def slotOpening : Text := ['{', '{']

def slotClosing : Text := ['}', '}']

def slot (name : Text) : Text := slotOpening ++ name ++ slotClosing

def slot? (s : Text) : Option (Text × Text) := do
  let s := Text.trimStart (← slotOpening.isPrefixOf? s)
  let rest ← slotClosing.isPrefixOf? (Text.trimStart (s.dropWhile isNameChar))
  if s.takeWhile isNameChar = [] then none else some (s.takeWhile isNameChar, rest)

theorem slot?_lt {s name rest : Text} (h : slot? s = some (name, rest)) :
    rest.length < s.length := by
  simp only [slot?, bind, Option.bind_eq_some_iff] at h
  obtain ⟨a, ha, b, hb, he⟩ := h
  split at he
  · simp at he
  · simp only [Option.some.injEq, Prod.mk.injEq] at he
    rw [Text.isPrefixOf?_eq_some] at ha hb
    have h1 := congrArg List.length ha
    have h2 := congrArg List.length hb
    have h3 := Text.length_trimStart_le a
    have h4 := Text.length_trimStart_le ((Text.trimStart a).dropWhile isNameChar)
    have h5 := Text.length_dropWhile_le isNameChar (Text.trimStart a)
    simp only [slotOpening, slotClosing, List.length_append, List.length_cons, List.length_nil]
      at h1 h2
    rw [← he.2]
    omega

def pieces (s : Text) : List Piece :=
  match s with
  | [] => []
  | c :: more =>
    match _h : slot? (c :: more) with
    | some (name, rest) =>
      .slot name ((c :: more).take ((c :: more).length - rest.length)) :: pieces rest
    | none => .char c :: pieces more
termination_by s.length
decreasing_by
  · exact slot?_lt _h
  · simp

namespace Piece

def fill (values : TextMap Text) : Piece → Text
  | .char c => [c]
  | .slot name spelling => (values.get? name).getD spelling

def hasName (name : Text) : Piece → Bool
  | .char _ => false
  | .slot n _ => n == name

end Piece

def hasSlot (t : Template) (name : Text) : Bool := (pieces t.source).any (Piece.hasName name)

def fill (t : Template) (values : TextMap Text) : Text :=
  (pieces t.source).flatMap (Piece.fill values)

/-- Read a template file. Without a slot for the body the contents of all pages would be lost. -/
def ofText (path s : Text) : Except Failure Template :=
  if hasSlot ⟨s⟩ "body" then .ok ⟨s⟩ else .error (.noBody path)

def rule (selector declarations : Text) : Text :=
  selector ++ " \x7b " ++ declarations ++ " \x7d\n"

def builtinStyle : Text :=
  rule "body" "max-width: 50em; margin: 0 auto; padding: 1em; font-family: Georgia, serif; line-height: 1.5;" ++
  rule ".toc ul" "list-style: none; padding-left: 0;" ++
  rule ".env" "margin: 1em 0; padding: 0.5em 1em; border-left: 3px solid #8aa;" ++
  rule ".citation .missing, .citation.missing" "color: #b00;" ++
  rule ".unparsed" "color: #b00;" ++
  rule ".latextable td" "border: 1px solid #999; min-width: 1.5em; text-align: center;" ++
  rule ".latextable td.none" "border: none;" ++
  rule ".topic-card-grid"
    "display: grid; grid-template-columns: repeat(auto-fill, minmax(12em, 1fr)); gap: 1em;" ++
  rule ".polynomial-table" "border-collapse: collapse;" ++
  rule ".polynomial-table th, .polynomial-table td"
    "padding: 0.2em 0.6em; border-bottom: 1px solid #ddd;"

def builtin : Template where
  source :=
    "<!DOCTYPE html>\n<html lang=\"en\">\n<head>\n<meta charset=\"UTF-8\">\n" ++
    ("<meta name=\"viewport\" content=\"width=device-width, initial-scale=1.0\">\n" : Text) ++
    "<title>" ++ slot "title" ++ "</title>\n" ++
    "<meta name=\"description\" content=\"" ++ slot "description" ++ "\">\n" ++
    "<meta name=\"keywords\" content=\"" ++ slot "keywords" ++ "\">\n" ++
    slot "math_head" ++ "\n<style>\n" ++ builtinStyle ++ "</style>\n" ++
    slot "css" ++ "\n</head>\n<body>\n" ++
    "<nav class=\"toc\">" ++ slot "toc" ++ "</nav>\n<main>\n" ++
    slot "body" ++ "\n" ++ slot "bibliography" ++ "\n</main>\n" ++
    "<footer>Last modified " ++ slot "lastmod" ++ " &middot; <a href=\"" ++ slot "page" ++ "\">" ++
    slot "page" ++ "</a></footer>\n</body>\n</html>\n"

end Template

end TexCatalog
