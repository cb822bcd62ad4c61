import TexCatalog.Text.Basic

/-!
# Commands of scripts

A script is made of commands, and commands of words. A word has parts that are filled in when the
command is run. Scripts and all that they handle are bytes, each written as the character with its
number.
-/

namespace TexCatalog.Shell

mutual

/-- A part of a word. What is quoted is neither cut into fields nor taken as a pattern. -/
inductive Part where
  | text (quoted : Bool) (t : Text)
  | parameter (quoted : Bool) (name : Text) (use : Use)
  /-- What a script writes; it stands at a line of the script around it. -/
  | script (quoted : Bool) (line : Nat) (t : Text)
  | arithmetic (quoted : Bool) (parts : List Part)

/-- What is taken of a parameter. With `orEmpty` an empty value counts as none. -/
inductive Use where
  | value
  | length
  | default (orEmpty : Bool) (parts : List Part)
  | assign (orEmpty : Bool) (parts : List Part)
  | require (orEmpty : Bool) (parts : List Part)
  | alternative (orEmpty : Bool) (parts : List Part)
  /-- The value without what a pattern matches at its start or its end. -/
  | strip (atStart longest : Bool) (pattern : List Part)
  | bad

end

abbrev Word := List Part

inductive Target where
  | input (path : Word)
  | output (append : Bool) (path : Word)
  | channel (name : Word)
  | document (text : Word)

structure Redirection where
  channel : Nat
  target : Target

inductive Command where
  | nothing
  | simple (line : Nat) (assignments : List (Text × Word)) (words : List Word)
      (redirections : List Redirection)
  | redirected (line : Nat) (body : Command) (redirections : List Redirection)
  | subshell (body : Command)
  | pipe (stages : List Command)
  | negation (body : Command)
  | both (first second : Command)
  | either (first second : Command)
  | sequence (first second : Command)
  | background (body : Command)
  | branch (condition body otherwise : Command)
  /-- Done as long as the condition succeeds, or with `ends` as long as it fails. -/
  | loop (ends : Bool) (condition body : Command)
  | forEach (line : Nat) (name : Text) (words : Option (List Word)) (body : Command)
  | choose (line : Nat) (subject : Word) (items : List (List Word × Command))
  | define (name : Text) (body : Command)

structure SyntaxFault where
  line : Nat
  problem : Text

namespace Part

def plain? : Part → Option Text
  | .text _ t => some t
  | _ => none

def isQuoted : Part → Bool
  | .text quoted _ => quoted
  | .parameter quoted .. => quoted
  | .script quoted .. => quoted
  | .arithmetic quoted _ => quoted

end Part

namespace Word

def bare? (w : Word) : Option Text :=
  match w with
  | [.text false t] => some t
  | _ => none

def cons (quoted : Bool) (c : Char) : Word → Word
  | .text q t :: more =>
    if q = quoted then .text q (c :: t) :: more else .text quoted [c] :: .text q t :: more
  | more => .text quoted [c] :: more

end Word

end TexCatalog.Shell
