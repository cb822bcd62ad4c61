import TexCatalog.Source.Environment

/-!
# Patterns

The shape of a form: a command or an environment, the names it answers to, and the groups behind
the name. A pattern matches a text as a whole, blanks around it apart.
-/

namespace TexCatalog

inductive FormKind where
  | command
  | environment
  deriving DecidableEq, Repr

/-- Whether a group in brackets may or must stand in front of the arguments. -/
inductive OptionalGroup where
  | forbidden
  | allowed
  | required
  deriving DecidableEq, Repr

structure Pattern where
  kind : FormKind
  names : List Text
  starred : Bool := false
  optional : OptionalGroup := .forbidden
  args : Nat := 0
  deriving DecidableEq, Repr

/-- A match of a pattern. -/
structure Invocation where
  name : Text
  starred : Bool
  optional : Option Text
  args : List Text
  /-- The body of an environment behind its arguments, empty for a command. -/
  body : Text
  source : Text
  deriving DecidableEq, Repr

/-- An argument without the blanks around it; empty if there is none. -/
def Invocation.arg (inv : Invocation) (i : Nat) : Text := Text.trim (inv.args.getD i [])

namespace Pattern

def command (names : List Text) : Pattern := { kind := .command, names }

def environment (names : List Text) : Pattern := { kind := .environment, names }

def withArgs (p : Pattern) (args : Nat) : Pattern := { p with args }

def withOptional (p : Pattern) (optional : OptionalGroup) : Pattern := { p with optional }

def withStar (p : Pattern) : Pattern := { p with starred := true }

def accepts (p : Pattern) (name : Text) (starred : Bool) : Bool :=
  p.names.contains name && (p.starred || !starred)

/-- The group in brackets, and the rest. One that is opened and not closed is no absent group. -/
def optionalGroup? (s : Text) : OptionalGroup → Option (Option Text × Text)
  | .forbidden => some (none, s)
  | .allowed =>
    match Source.spacedBracketed? s with
    | some (v, rest) => some (some v, rest)
    | none => if (Text.trimStart s).head? = some '[' then none else some (none, s)
  | .required => (Source.spacedBracketed? s).map fun p => (some p.1, p.2)

def braceGroups? : Nat → Text → Option (List Text × Text)
  | 0, s => some ([], s)
  | n + 1, s =>
    match Source.spacedBraced? s with
    | none => none
    | some (v, rest) => (braceGroups? n rest).map fun p => (v :: p.1, p.2)

/-- What a command or the body of an environment has behind its name. -/
structure Arguments where
  optional : Option Text
  args : List Text
  rest : Text

def arguments? (p : Pattern) (s : Text) : Option Arguments :=
  match optionalGroup? s p.optional with
  | none => none
  | some (optional, s) =>
    (braceGroups? p.args s).map fun g => { optional, args := g.1, rest := g.2 }

def matchCommand? (p : Pattern) (source : Text) : Option Invocation :=
  match Source.commandName? source with
  | none => none
  | some (name, afterName) =>
    if p.accepts name (Source.star afterName).1 then
      match p.arguments? (Source.star afterName).2 with
      | none => none
      | some a =>
        if Text.isBlank a.rest then
          some
            { name, starred := (Source.star afterName).1, optional := a.optional, args := a.args
              body := [], source }
        else none
    else none

/-- A name without the star at its end, and whether there was one. -/
def splitStar (name : Text) : Text × Bool :=
  match Text.dropEnd? ['*'] name with
  | some name => (name, true)
  | none => (name, false)

def matchEnvironment? (p : Pattern) (source : Text) : Option Invocation :=
  match Source.environment? source with
  | none => none
  | some (e, rest) =>
    if p.accepts (splitStar e.name).1 (splitStar e.name).2 then
      match p.arguments? e.body with
      | none => none
      | some a =>
        if Text.isBlank rest then
          some
            { name := (splitStar e.name).1, starred := (splitStar e.name).2
              optional := a.optional, args := a.args, body := a.rest, source }
        else none
    else none

def match? (p : Pattern) (text : Text) : Option Invocation :=
  match p.kind with
  | .command => p.matchCommand? (Text.trim text)
  | .environment => p.matchEnvironment? (Text.trim text)

end Pattern

end TexCatalog
