import TexCatalog.Json.Draft
import TexCatalog.Json.Number

/-!
# Reading JSON

A text is read as one value with nothing but blanks around it. Arrays and objects may be nested up
to a limit. Every function reads from the start of a text and gives what it has read with the rest,
or with no rest where the text breaks off. Each step takes at least one character, so the length of
the text bounds the number of steps.
-/

namespace TexCatalog.Json

def isSpace (c : Char) : Bool := c == ' ' || c == '\t' || c == '\n' || c == '\r'

def dropSpace (s : Text) : Text := s.dropWhile isSpace

def hexValue? (c : Char) : Option Nat :=
  if c.isDigit then some (c.toNat - '0'.toNat)
  else if 'a' ≤ c ∧ c ≤ 'f' then some (c.toNat - 'a'.toNat + 10)
  else if 'A' ≤ c ∧ c ≤ 'F' then some (c.toNat - 'A'.toNat + 10)
  else none

def hexUnit? (a b c d : Char) : Option Nat := do
  let a ← hexValue? a
  let b ← hexValue? b
  let c ← hexValue? c
  let d ← hexValue? d
  some (((a * 16 + b) * 16 + c) * 16 + d)

/-- The character that a letter behind a backslash stands for. -/
def simpleEscape? (c : Char) : Option Char :=
  if c = '"' ∨ c = '\\' ∨ c = '/' then some c
  else if c = 'b' then some '\x08'
  else if c = 'f' then some '\x0c'
  else if c = 'n' then some '\n'
  else if c = 'r' then some '\r'
  else if c = 't' then some '\t'
  else none

def isHighSurrogate (n : Nat) : Bool := 0xD800 ≤ n && n < 0xDC00

def isLowSurrogate (n : Nat) : Bool := 0xDC00 ≤ n && n < 0xE000

/-- The rest of a string behind its opening quotation mark. There is no string where one half of a
surrogate pair stands alone. -/
def stringBody : Nat → Text → Option (Option Text × Text)
  | 0, _ => none
  | fuel + 1, s =>
    let onward (c : Char) (rest : Text) : Option (Option Text × Text) :=
      (stringBody fuel rest).map fun p => (p.1.map (c :: ·), p.2)
    let lonely (rest : Text) : Option (Option Text × Text) :=
      (stringBody fuel rest).map fun p => (none, p.2)
    match s with
    | '"' :: rest => some (some [], rest)
    | '\\' :: 'u' :: a :: b :: c :: d :: rest =>
      match hexUnit? a b c d with
      | none => none
      | some unit =>
        if isLowSurrogate unit then lonely rest
        else if isHighSurrogate unit then
          match rest with
          | '\\' :: 'u' :: a :: b :: c :: d :: behind =>
            match hexUnit? a b c d with
            | none => none
            | some low =>
              if isLowSurrogate low then
                onward (Char.ofNat (0x10000 + (unit - 0xD800) * 0x400 + (low - 0xDC00))) behind
              else lonely rest
          | rest => lonely rest
        else onward (Char.ofNat unit) rest
    | '\\' :: c :: rest => do onward (← simpleEscape? c) rest
    | c :: rest => if c.toNat < 32 ∨ c = '\\' then none else onward c rest
    | [] => none

abbrev Partial (α : Type) := α × Option Text

def readString (fuel : Nat) (s : Text) : Partial Draft :=
  match stringBody fuel s with
  | none => (.broken, none)
  | some (none, rest) => (.unfit, some rest)
  | some (some t, rest) => (.str t, some rest)

def readNumber (s : Text) : Partial Draft :=
  match Number.Numeral.read? s with
  | none => (.broken, none)
  | some (m, rest) =>
    match m.value? with
    | none => (.unfit, some rest)
    | some n => (.num n, some rest)

def readWord (s : Text) : Partial Draft :=
  match ("null" : Text).isPrefixOf? s, ("true" : Text).isPrefixOf? s,
    ("false" : Text).isPrefixOf? s with
  | some rest, _, _ => (.null, some rest)
  | _, some rest, _ => (.bool true, some rest)
  | _, _, some rest => (.bool false, some rest)
  | _, _, _ => (.broken, none)

/-- An array or an object where `depth` more levels may be opened. -/
def Draft.inside (depth : Nat) (d : Draft) : Draft :=
  match depth with
  | 0 => .deep d
  | _ + 1 => d

mutual

/-- The value at the start of a text; `depth` more levels may be opened. -/
def readValue : Nat → Nat → Text → Partial Draft
  | 0, _, _ => (.broken, none)
  | fuel + 1, depth, s =>
    match dropSpace s with
    | [] => (.broken, none)
    | c :: rest =>
      if c = '"' then readString fuel rest
      else if c = '[' then
        match dropSpace rest with
        | ']' :: rest => (.inside depth (.arr []), some rest)
        | rest =>
          let p := readItems fuel (depth - 1) rest
          (.inside depth (.arr p.1), p.2)
      else if c = '{' then
        match dropSpace rest with
        | '}' :: rest => (.inside depth (.obj []), some rest)
        | rest =>
          let p := readMembers fuel (depth - 1) rest
          (.inside depth (.obj p.1), p.2)
      else if c = '-' ∨ c.isDigit then readNumber (c :: rest)
      else readWord (c :: rest)

def readItems : Nat → Nat → Text → Partial (List Draft)
  | 0, _, _ => ([.broken], none)
  | fuel + 1, depth, s =>
    match readValue fuel depth s with
    | (v, none) => ([v], none)
    | (v, some s) =>
      match dropSpace s with
      | ']' :: rest => ([v], some rest)
      | ',' :: rest =>
        let p := readItems fuel depth rest
        (v :: p.1, p.2)
      | _ => ([v, .broken], none)

def readMembers : Nat → Nat → Text → Partial (List (Draft × Draft))
  | 0, _, _ => ([(.broken, .broken)], none)
  | fuel + 1, depth, s =>
    match dropSpace s with
    | '"' :: s =>
      match readString fuel s with
      | (name, none) => ([(name, .broken)], none)
      | (name, some s) =>
        match dropSpace s with
        | ':' :: s =>
          match readValue fuel depth s with
          | (v, none) => ([(name, v)], none)
          | (v, some s) =>
            match dropSpace s with
            | '}' :: rest => ([(name, v)], some rest)
            | ',' :: rest =>
              let p := readMembers fuel depth rest
              ((name, v) :: p.1, p.2)
            | _ => ([(name, v), (.broken, .broken)], none)
        | _ => ([(name, .broken)], none)
    | s => ([((readValue fuel depth s).1, .broken)], none)

end

/-- The draft of a text with at most `depth` levels of nesting, and what stands behind the value. -/
def draft (depth : Nat) (s : Text) : Partial Draft := readValue (2 * s.length + 2) depth s

def endsWith : Option Text → Bool
  | none => false
  | some rest => dropSpace rest == []

/-- The value that a text stands for, with at most `depth` levels of nesting. -/
def parseWithin? (depth : Nat) (s : Text) : Option Json :=
  match (draft depth s).1.toJson with
  | .error _ => none
  | .ok v => if endsWith (draft depth s).2 then some v else none

def maxDepth : Nat := 127

def parse? (s : Text) : Option Json := parseWithin? maxDepth s

end TexCatalog.Json
