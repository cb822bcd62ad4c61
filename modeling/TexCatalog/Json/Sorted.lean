import TexCatalog.Json.Basic
import TexCatalog.Text.Map

/-!
# Members in order

Where the order of members means nothing, a value is put into a form of its own: the members of
every object stand in ascending order of their names, and of members with one name the last is kept.
-/

namespace TexCatalog.Json

mutual

def sorted : Json → Json
  | .arr items => .arr (sortedItems items)
  | .obj members => .obj (TextMap.ofList (sortedMembers members)).entries
  | j => j

def sortedItems : List Json → List Json
  | [] => []
  | v :: more => sorted v :: sortedItems more

def sortedMembers : List (Text × Json) → List (Text × Json)
  | [] => []
  | (name, v) :: more => (name, sorted v) :: sortedMembers more

end

end TexCatalog.Json
