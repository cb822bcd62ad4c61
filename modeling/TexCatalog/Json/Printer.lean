import TexCatalog.Json.Number

/-!
# Printing JSON

Two layouts: compact, and pretty with two spaces per level. Empty arrays and objects are closed at
once in both. Only control characters, quotation marks and backslashes are escaped.
-/

namespace TexCatalog.Json

def hexDigit (n : Nat) : Char := (Nat.toDigits 16 n).headD '0'

def escapeChar (c : Char) : Text :=
  if c = '"' then "\\\""
  else if c = '\\' then "\\\\"
  else if c = '\n' then "\\n"
  else if c = '\r' then "\\r"
  else if c = '\t' then "\\t"
  else if c.toNat = 8 then "\\b"
  else if c.toNat = 12 then "\\f"
  else if c.toNat < 32 then "\\u00" ++ [hexDigit (c.toNat / 16), hexDigit (c.toNat % 16)]
  else [c]

def quote (t : Text) : Text := '"' :: t.flatMap escapeChar ++ ['"']

def printBool (b : Bool) : Text := if b then "true" else "false"

mutual

def compact : Json → Text
  | .null => "null"
  | .bool b => printBool b
  | .num n => n.print
  | .str t => quote t
  | .arr [] => "[]"
  | .arr (v :: more) => '[' :: compact v ++ compactItems more
  | .obj [] => "\x7b\x7d"
  | .obj ((name, v) :: more) => '{' :: quote name ++ ':' :: compact v ++ compactMembers more

def compactItems : List Json → Text
  | [] => [']']
  | v :: more => ',' :: compact v ++ compactItems more

def compactMembers : List (Text × Json) → Text
  | [] => ['}']
  | (name, v) :: more => ',' :: quote name ++ ':' :: compact v ++ compactMembers more

end

def newline (level : Nat) : Text := '\n' :: List.replicate (2 * level) ' '

mutual

def prettyAt (level : Nat) : Json → Text
  | .null => "null"
  | .bool b => printBool b
  | .num n => n.print
  | .str t => quote t
  | .arr [] => "[]"
  | .arr (v :: more) =>
    '[' :: newline (level + 1) ++ prettyAt (level + 1) v ++ prettyItems level more
  | .obj [] => "\x7b\x7d"
  | .obj ((name, v) :: more) =>
    '{' :: newline (level + 1) ++ quote name ++ ':' :: ' ' :: prettyAt (level + 1) v ++
      prettyMembers level more

def prettyItems (level : Nat) : List Json → Text
  | [] => newline level ++ [']']
  | v :: more => ',' :: newline (level + 1) ++ prettyAt (level + 1) v ++ prettyItems level more

def prettyMembers (level : Nat) : List (Text × Json) → Text
  | [] => newline level ++ ['}']
  | (name, v) :: more =>
    ',' :: newline (level + 1) ++ quote name ++ ':' :: ' ' :: prettyAt (level + 1) v ++
      prettyMembers level more

end

def pretty (j : Json) : Text := prettyAt 0 j

end TexCatalog.Json
