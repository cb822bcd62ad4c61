import TexCatalog.Text.Basic

/-!
# Options of programs

Options are letters behind a dash, some with a value. What is no option is an operand; options may
stand behind operands, up to a double dash.
-/

namespace TexCatalog.Shell

structure Options where
  letters : List (Char × Text) := []
  operands : List Text := []

namespace Options

def has (o : Options) (c : Char) : Bool := o.letters.any (·.1 == c)

def value? (o : Options) (c : Char) : Option Text :=
  (o.letters.reverse.find? (·.1 == c)).map Prod.snd

/-- The letters of an argument behind its dash. `next` is the argument that follows; it is told
whether that is taken as a value. -/
def ofArgument (plain valued : Text) (next : Option Text) : Text →
    Except Text (List (Char × Text) × Bool)
  | [] => .ok ([], false)
  | c :: s =>
    if plain.contains c then do
      let (letters, taken) ← ofArgument plain valued next s
      return ((c, []) :: letters, taken)
    else if valued.contains c then
      match s, next with
      | [], none => .error ("option requires an argument -- '" ++ [c, '\''])
      | [], some value => .ok ([(c, value)], true)
      | value, _ => .ok ([(c, value)], false)
    else .error ("invalid option -- '" ++ [c, '\''])

/-- Read the arguments of a program whose options are letters, plain ones and ones with a value. -/
def read (plain valued : Text) : Nat → List Text → Except Text Options
  | 0, _ => .ok {}
  | _, [] => .ok {}
  | fuel + 1, a :: more =>
    match a with
    | ['-', '-'] => .ok { operands := more }
    | '-' :: '-' :: _ => .error ("unrecognized option '" ++ a ++ ['\''])
    | '-' :: c :: s => do
      let (letters, taken) ← ofArgument plain valued more.head? (c :: s)
      let o ← read plain valued fuel (if taken then more.tail else more)
      return { o with letters := letters ++ o.letters }
    | a => do
      let o ← read plain valued fuel more
      return { o with operands := a :: o.operands }

end Options

end TexCatalog.Shell
