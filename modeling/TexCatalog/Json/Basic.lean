import TexCatalog.Text.Basic

/-!
# JSON values

A value as it stands in a text: the members of an object keep their order, and a name may occur
more than once.
-/

namespace TexCatalog

inductive Json.Number where
  | int (n : Int)
  | float (x : Float)

inductive Json where
  | null
  | bool (b : Bool)
  | num (n : Json.Number)
  | str (t : Text)
  | arr (items : List Json)
  | obj (members : List (Text × Json))

namespace Json

instance : Inhabited Json := ⟨.null⟩

def nat (n : Nat) : Json := .num (.int n)

def int (n : Int) : Json := .num (.int n)

def string (s : String) : Json := .str s

def ofOption (f : α → Json) : Option α → Json
  | none => .null
  | some a => f a

def ofList (f : α → Json) (items : List α) : Json := .arr (items.map f)

/-- The value of the last member with this name, the one that counts where names may repeat. -/
def lastMember? (name : Text) (members : List (Text × Json)) : Option Json :=
  (members.reverse.find? fun m => m.1 == name).map Prod.snd

def get? (name : Text) : Json → Option Json
  | .obj members => lastMember? name members
  | _ => none

def text? : Json → Option Text
  | .str t => some t
  | _ => none

def items? : Json → Option (List Json)
  | .arr items => some items
  | _ => none

end Json

end TexCatalog
