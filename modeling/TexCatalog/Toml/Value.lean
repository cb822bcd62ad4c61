import TexCatalog.Toml.Scalar

/-!
# Reading TOML values

Strings are read with their text, arrays and tables with their contents. Each function reads from
the start of a text and gives the rest. Arrays and tables may be nested up to a limit, and keys may
have as many parts.
-/

namespace TexCatalog.Toml

/-- A value. Numbers, times and truth values are not told apart. -/
inductive Value where
  | text (t : Text)
  | array (items : List Value)
  | table (members : List (List Text × Value))
  | scalar

instance : Inhabited Value := ⟨.scalar⟩

/-- Is it an array without items or a table without members? -/
def Value.isEmpty : Value → Bool
  | .array [] => true
  | .table [] => true
  | _ => false

def isGap (c : Char) : Bool := c == ' ' || c == '\t'

def dropGap (s : Text) : Text := s.dropWhile isGap

/-- The rest behind a line break, which is `\n` or `\r\n`. -/
def dropBreak? : Text → Option Text
  | '\n' :: s => some s
  | '\r' :: '\n' :: s => some s
  | _ => none

/-- May the character stand in a string or in a comment? Control characters but tabs may not. -/
def isLineChar (c : Char) : Bool := c == '\t' || (0x20 ≤ c.toNat && c.toNat ≠ 0x7F)

def dropComment : Text → Text
  | '#' :: s => s.dropWhile isLineChar
  | s => s

def hexNumber? (digits : Text) : Option Nat :=
  if digits.all isHexDigit then some (value 16 digits) else none

def escape? : Text → Option (Char × Text)
  | [] => none
  | c :: s =>
    if c = 'b' then some ('\x08', s)
    else if c = 't' then some ('\t', s)
    else if c = 'n' then some ('\n', s)
    else if c = 'f' then some ('\x0c', s)
    else if c = 'r' then some ('\r', s)
    else if c = '"' ∨ c = '\\' then some (c, s)
    else if c = 'u' ∨ c = 'U' then
      let width := if c = 'u' then 4 else 8
      match hexNumber? (s.take width) with
      | some n =>
        if (s.take width).length = width ∧ n.isValidChar then some (Char.ofNat n, s.drop width)
        else none
      | none => none
    else none

def onto (c : Char) (r : Option (Text × Text)) : Option (Text × Text) :=
  r.map fun p => (c :: p.1, p.2)

/-- The rest of a string on one line, behind its opening quotation mark. -/
def basicBody : Nat → Text → Option (Text × Text)
  | 0, _ => none
  | _, [] => none
  | fuel + 1, c :: s =>
    if c = '"' then some ([], s)
    else if c = '\\' then
      match escape? s with
      | some (d, s) => onto d (basicBody fuel s)
      | none => none
    else if isLineChar c then onto c (basicBody fuel s)
    else none

def literalBody (s : Text) : Option (Text × Text) :=
  match s.dropWhile fun c => c != '\'' && isLineChar c with
  | '\'' :: rest => some (s.takeWhile fun c => c != '\'' && isLineChar c, rest)
  | _ => none

/-- Three quotation marks close a string of several lines; up to two more in front of them belong to
it. -/
def closing? (mark : Char) (s : Text) : Option (Text × Text) :=
  let marks := (s.take 5).takeWhile (· == mark)
  if 3 ≤ marks.length then some (marks.drop 3, s.drop marks.length) else none

def dropLayout : Text → Text
  | '\r' :: '\n' :: s => dropLayout s
  | c :: s => if isGap c ∨ c = '\n' then dropLayout s else c :: s
  | [] => []

/-- The rest behind a backslash at the end of a line, with all blanks and line breaks after it. -/
def dropContinuation? (s : Text) : Option Text := (dropBreak? (dropGap s)).map dropLayout

def basicLines : Nat → Text → Option (Text × Text)
  | 0, _ => none
  | _, [] => none
  | fuel + 1, c :: s =>
    match if c = '"' then closing? '"' (c :: s) else none with
    | some r => some r
    | none =>
      if c = '\\' then
        match dropContinuation? s, escape? s with
        | some s, _ => basicLines fuel s
        | none, some (d, s) => onto d (basicLines fuel s)
        | none, none => none
      else
        match dropBreak? (c :: s) with
        | some rest => onto '\n' (basicLines fuel rest)
        | none => if isLineChar c then onto c (basicLines fuel s) else none

def literalLines : Nat → Text → Option (Text × Text)
  | 0, _ => none
  | _, [] => none
  | fuel + 1, c :: s =>
    match if c = '\'' then closing? '\'' (c :: s) else none with
    | some r => some r
    | none =>
      match dropBreak? (c :: s) with
      | some rest => onto '\n' (literalLines fuel rest)
      | none => if isLineChar c then onto c (literalLines fuel s) else none

/-- A line break right behind the opening marks is no part of the string. -/
def dropFirstBreak (s : Text) : Text := (dropBreak? s).getD s

def string? (fuel : Nat) (s : Text) : Option (Text × Text) :=
  match s with
  | '"' :: '"' :: '"' :: s => basicLines fuel (dropFirstBreak s)
  | '"' :: s => basicBody fuel s
  | '\'' :: '\'' :: '\'' :: s => literalLines fuel (dropFirstBreak s)
  | '\'' :: s => literalBody s
  | _ => none

def isBareChar (c : Char) : Bool := c.isAlphanum || c == '_' || c == '-'

def keyPart? (fuel : Nat) (s : Text) : Option (Text × Text) :=
  match s with
  | '"' :: s => basicBody fuel s
  | '\'' :: s => literalBody s
  | s =>
    if s.takeWhile isBareChar = [] then none
    else some (s.takeWhile isBareChar, s.dropWhile isBareChar)

def keyParts? : Nat → Text → Option (List Text × Text)
  | 0, _ => none
  | fuel + 1, s =>
    match keyPart? fuel s with
    | none => none
    | some (part, rest) =>
      match dropGap rest with
      | '.' :: more => (keyParts? fuel (dropGap more)).map fun p => (part :: p.1, p.2)
      | _ => some ([part], rest)

/-- The greatest number of parts of a key, and of arrays and tables inside each other. -/
def maxDepth : Nat := 79

def key? (fuel : Nat) (s : Text) : Option (List Text × Text) :=
  (keyParts? fuel s).filter fun p => p.1.length ≤ maxDepth

def isScalarChar (c : Char) : Bool :=
  c.isAlphanum || c == '+' || c == '-' || c == '_' || c == '.' || c == ':'

/-- A scalar and the rest; a date and a time of day may have one space between them. -/
def scalar? (s : Text) : Option Text :=
  let word := s.takeWhile isScalarChar
  let rest := s.dropWhile isScalarChar
  let time :=
    match rest with
    | ' ' :: rest => rest.takeWhile isScalarChar
    | _ => []
  if time.head?.any Char.isDigit && isScalar (word ++ ' ' :: time) then
    some (rest.drop (time.length + 1))
  else if isScalar word then some rest
  else none

def dropFiller : Nat → Text → Text
  | 0, s => s
  | fuel + 1, s =>
    match dropGap s with
    | '#' :: rest => dropFiller fuel (dropComment ('#' :: rest))
    | rest =>
      match dropBreak? rest with
      | some more => dropFiller fuel more
      | none => rest

mutual

/-- A value and the rest; `depth` more arrays and tables may be opened. -/
def valueWithin? : Nat → Nat → Text → Option (Value × Text)
  | 0, _, _ => none
  | fuel + 1, depth, s =>
    match s with
    | [] => none
    | c :: rest =>
      if c = '"' ∨ c = '\'' then (string? fuel s).map fun p => (.text p.1, p.2)
      else if c = '[' then
        match depth with
        | 0 => none
        | depth + 1 =>
          (items? fuel depth (dropFiller fuel rest)).map fun p => (.array p.1, p.2)
      else if c = '{' then
        match depth, dropGap rest with
        | 0, _ => none
        | _ + 1, '}' :: rest => some (.table [], rest)
        | depth + 1, rest => (members? fuel depth rest).map fun p => (.table p.1, p.2)
      else (scalar? s).map fun rest => (.scalar, rest)

/-- The items of an array and the rest behind its closing bracket. -/
def items? : Nat → Nat → Text → Option (List Value × Text)
  | 0, _, _ => none
  | fuel + 1, depth, s =>
    match s with
    | ']' :: rest => some ([], rest)
    | s =>
      match valueWithin? fuel depth s with
      | none => none
      | some (v, rest) =>
        match dropFiller fuel rest with
        | ',' :: rest =>
          (items? fuel depth (dropFiller fuel rest)).map fun p => (v :: p.1, p.2)
        | ']' :: rest => some ([v], rest)
        | _ => none

/-- The members of an inline table, none of whose keys may extend another, and the rest. -/
def members? : Nat → Nat → Text → Option (List (List Text × Value) × Text)
  | 0, _, _ => none
  | fuel + 1, depth, s =>
    match key? fuel s with
    | none => none
    | some (key, rest) =>
      match dropGap rest with
      | '=' :: rest =>
        match valueWithin? fuel depth (dropGap rest) with
        | none => none
        | some (v, rest) =>
          match dropGap rest with
          | ',' :: rest =>
            match members? fuel depth (dropGap rest) with
            | none => none
            | some (more, rest) =>
              if more.any fun m => m.1.isPrefixOf key || key.isPrefixOf m.1 then none
              else some ((key, v) :: more, rest)
          | '}' :: rest => some ([(key, v)], rest)
          | _ => none
      | _ => none

end

def value? (fuel : Nat) (s : Text) : Option (Value × Text) := valueWithin? fuel maxDepth s

end TexCatalog.Toml
