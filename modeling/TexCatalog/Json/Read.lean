import TexCatalog.Json.Parser
import TexCatalog.Json.Shape
import TexCatalog.Text.Utf8

/-!
# Typed values in texts

A typed value is read from the draft of a text. A fault on the way to it counts before anything that
follows it; behind it only blanks may stand.
-/

namespace TexCatalog.Json

def readText (decode : Draft → Decoded α) (s : Text) : Except Failure α :=
  match decode (draft maxDepth s).1 with
  | .error e => .error (.json e)
  | .ok a => if endsWith (draft maxDepth s).2 then .ok a else .error (.json .syntactic)

/-- Read a typed value from the bytes of a text. A mistake among them is as good as one half of a
surrogate pair, which does no harm in a string that is passed over. -/
def readBytes (decode : Draft → Decoded α) (bytes : Text) : Except Failure α :=
  readText decode ((Text.decode bytes).flatMap fun c => (c.map ([·])).getD "\\ud800")

end TexCatalog.Json
