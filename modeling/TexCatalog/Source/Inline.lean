import TexCatalog.Source.Token

/-!
# Reading running text

Running text is read token by token; an argument is read the same way. Neighbouring pieces of plain
text are merged, and so are neighbouring spaces, once per level.
-/

namespace TexCatalog.Source

def normalize : List Inline → List Inline
  | [] => []
  | node :: more =>
    match node, normalize more with
    | .text a, .text b :: rest => .text (a ++ b) :: rest
    | .space, .space :: rest => .space :: rest
    | node, rest => node :: rest

def fragments (s : Text) : List Inline :=
  match _h : Token.next? s with
  | none => []
  | some (.nodes content, rest) => content ++ fragments rest
  | some (.nested wrap argument, rest) =>
    wrap.apply (normalize (fragments argument)) ++ fragments rest
termination_by s.length
decreasing_by
  all_goals first
    | exact (Token.next?_lt _h).1
    | exact (Token.next?_lt _h).2

def readInlines (s : Text) : List Inline := normalize (fragments s)

end TexCatalog.Source
