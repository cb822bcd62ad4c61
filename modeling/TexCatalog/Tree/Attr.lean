import TexCatalog.Text.Basic

/-!
# Attributes

What a node carries besides its content: an identifier, classes and key-value pairs. Classes stand
in the order in which they were added, and a key has one value.
-/

namespace TexCatalog

structure Attr where
  id : Text := []
  classes : List Text := []
  pairs : List (Text × Text) := []
  deriving DecidableEq, Repr

namespace Attr

def empty : Attr := {}

def ofId (id : Text) : Attr := { id }

def ofClasses (classes : List Text) : Attr := { classes }

def hasClass (a : Attr) (c : Text) : Bool := a.classes.contains c

def addClass (a : Attr) (c : Text) : Attr :=
  if a.hasClass c then a else { a with classes := a.classes ++ [c] }

/-- Give the first pair with this key a new value, or add the pair at the end. -/
def setPair (key value : Text) : List (Text × Text) → List (Text × Text)
  | [] => [(key, value)]
  | (k, v) :: more => if k = key then (k, value) :: more else (k, v) :: setPair key value more

def set (a : Attr) (key value : Text) : Attr := { a with pairs := setPair key value a.pairs }

def get? (a : Attr) (key : Text) : Option Text :=
  (a.pairs.find? fun p => p.1 == key).map Prod.snd

end Attr

end TexCatalog
