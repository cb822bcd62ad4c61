import TexCatalog.Failure
import TexCatalog.Json.Basic

/-!
# Drafts

A draft is a JSON text as far as it can be read. It shows where the text breaks off, and what in it
is written well but stands for no value. Whoever reads a draft from the left meets the first fault
of the text first, whether that is a mistake in the text or a value of another shape than wanted.
-/

namespace TexCatalog

/-- A JSON text as far as it can be read. An array that breaks off has the place where it does so as
its last item, and an object that breaks off has it in its last member. -/
inductive Json.Draft where
  | null
  | bool (b : Bool)
  | num (n : Json.Number)
  | str (t : Text)
  | arr (items : List Draft)
  /-- Names are strings, except one at which the object breaks off. -/
  | obj (members : List (Draft × Draft))
  | deep (d : Draft)
  /-- A number that is too large, or a string with one half of a surrogate pair. -/
  | unfit
  | broken

namespace Json

abbrev Decoded (α : Type) := Except JsonFault α

namespace Draft

instance : Inhabited Draft := ⟨.broken⟩

def refusal : Draft → JsonFault
  | .unfit => .syntactic
  | .broken => .syntactic
  | _ => .shape

mutual

def ofJson : Json → Draft
  | .null => .null
  | .bool b => .bool b
  | .num n => .num n
  | .str t => .str t
  | .arr items => .arr (ofItems items)
  | .obj members => .obj (ofMembers members)

def ofItems : List Json → List Draft
  | [] => []
  | v :: more => ofJson v :: ofItems more

def ofMembers : List (Text × Json) → List (Draft × Draft)
  | [] => []
  | (name, v) :: more => (.str name, ofJson v) :: ofMembers more

end

mutual

def toJson : Draft → Decoded Json
  | .null => .ok .null
  | .bool b => .ok (.bool b)
  | .num n => .ok (.num n)
  | .str t => .ok (.str t)
  | .arr items => (toItems items).map .arr
  | .obj members => (toMembers members).map .obj
  | _ => .error .syntactic

def toItems : List Draft → Decoded (List Json)
  | [] => .ok []
  | v :: more => do
    let v ← toJson v
    let more ← toItems more
    return v :: more

def toMembers : List (Draft × Draft) → Decoded (List (Text × Json))
  | [] => .ok []
  | (.str name, v) :: more => do
    let v ← toJson v
    let more ← toMembers more
    return (name, v) :: more
  | _ => .error .syntactic

end

mutual

/-- Pass over a draft whose value does not matter; it only has to be written well. -/
def skip : Draft → Decoded Unit
  | .broken => .error .syntactic
  | .deep d => skip d
  | .arr items => skipItems items
  | .obj members => skipMembers members
  | _ => .ok ()

def skipItems : List Draft → Decoded Unit
  | [] => .ok ()
  | v :: more => do
    skip v
    skipItems more

def skipMembers : List (Draft × Draft) → Decoded Unit
  | [] => .ok ()
  | (_, v) :: more => do
    skip v
    skipMembers more

end

end Draft

namespace Draft

mutual

theorem toJson_ofJson : ∀ j : Json, toJson (ofJson j) = .ok j
  | .null | .bool _ | .num _ | .str _ => rfl
  | .arr items => by simp [ofJson, toJson, toItems_ofItems items, Except.map]
  | .obj members => by simp [ofJson, toJson, toMembers_ofMembers members, Except.map]

theorem toItems_ofItems : ∀ items : List Json, toItems (ofItems items) = .ok items
  | [] => rfl
  | v :: more => by
    simp [ofItems, toItems, toJson_ofJson v, toItems_ofItems more, bind, Except.bind, pure,
      Except.pure]

theorem toMembers_ofMembers :
    ∀ members : List (Text × Json), toMembers (ofMembers members) = .ok members
  | [] => rfl
  | (name, v) :: more => by
    simp [ofMembers, toMembers, toJson_ofJson v, toMembers_ofMembers more, bind, Except.bind, pure,
      Except.pure]

end

end Draft

end Json

end TexCatalog
