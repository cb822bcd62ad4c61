import TexCatalog.Toml.Value

/-!
# TOML documents

A document is a sequence of definitions: keys with values, and the headers of tables. Every key is
defined once; the tables along a dotted key or a header come into being with it.
-/

namespace TexCatalog.Toml

inductive Defined where
  | value (v : Value)
  | dotted
  | implicit
  | header
  | tables

abbrev Definitions := List (List Text × Defined)

namespace Definitions

def get? (ds : Definitions) (path : List Text) : Option Defined :=
  (ds.find? fun d => d.1 == path).map Prod.snd

def ancestors (path : List Text) : List (List Text) :=
  (List.range (path.length - 1)).map fun n => path.take (n + 1)

/-- Define the tables along a path. One that is defined already must be of a kind in which the path
may go on. -/
def open? (fresh : Defined) (mayGoOn : Defined → Bool) :
    Definitions → List (List Text) → Option Definitions
  | ds, [] => some ds
  | ds, path :: more =>
    match ds.get? path with
    | none => open? fresh mayGoOn ((path, fresh) :: ds) more
    | some d => if mayGoOn d then open? fresh mayGoOn ds more else none

def mayLead : Defined → Bool
  | .value _ | .header => false
  | _ => true

def isDotted : Defined → Bool
  | .dotted => true
  | _ => false

/-- Define a key in the table of a header. The last table along a dotted key comes from a dotted key
itself. -/
def define? (ds : Definitions) (table key : List Text) (v : Value) : Option Definitions :=
  let along := (ancestors key).map (table ++ ·)
  match open? .dotted mayLead ds along with
  | none => none
  | some ds =>
    if along.getLast?.all fun path => (ds.get? path).any isDotted then
      match ds.get? (table ++ key) with
      | none => some ((table ++ key, .value v) :: ds)
      | some _ => none
    else none

def mayContain : Defined → Bool
  | .value _ => false
  | _ => true

def defineTable? (ds : Definitions) (path : List Text) : Option Definitions :=
  match open? .implicit mayContain ds (ancestors path) with
  | none => none
  | some ds =>
    match ds.get? path with
    | none | some .implicit => some ((path, .header) :: ds)
    | some _ => none

/-- Define one more table of a list of tables; what is defined inside the one before is left
behind. -/
def extendTables? (ds : Definitions) (path : List Text) : Option Definitions :=
  match open? .implicit mayContain ds (ancestors path) with
  | none => none
  | some ds =>
    match ds.get? path with
    | none => some ((path, .tables) :: ds)
    | some .tables => some (ds.filter fun d => !(path.isPrefixOf d.1 && d.1 != path))
    | some _ => none

def inside (ds : Definitions) (table : List Text) : List Text :=
  ((ds.filter fun d => d.1 ≠ [] && d.1.dropLast = table).filterMap fun d => d.1.getLast?).eraseDups

end Definitions

/-- The rest of a line that must be over, up to and with its line break. -/
def endLine? (s : Text) : Option Text :=
  match dropComment (dropGap s) with
  | [] => some []
  | s => dropBreak? s

/-- The header of a table and the rest behind its line. -/
def header? (fuel : Nat) (s : Text) : Option (Bool × List Text × Text) :=
  match s with
  | '[' :: '[' :: s =>
    match key? fuel (dropGap s) with
    | none => none
    | some (path, rest) =>
      match dropGap rest with
      | ']' :: ']' :: rest => (endLine? rest).map fun rest => (true, path, rest)
      | _ => none
  | '[' :: s =>
    match key? fuel (dropGap s) with
    | none => none
    | some (path, rest) =>
      match dropGap rest with
      | ']' :: rest => (endLine? rest).map fun rest => (false, path, rest)
      | _ => none
  | _ => none

/-- A key with its value and the rest behind its line. -/
def keyValue? (fuel : Nat) (s : Text) : Option (List Text × Value × Text) :=
  match key? fuel s with
  | none => none
  | some (key, rest) =>
    match dropGap rest with
    | '=' :: rest =>
      match value? fuel (dropGap rest) with
      | none => none
      | some (v, rest) => (endLine? rest).map fun rest => (key, v, rest)
    | _ => none

def lines? : Nat → Definitions → List Text → Text → Option Definitions
  | 0, _, _, _ => none
  | fuel + 1, ds, table, s =>
    match endLine? s with
    | some [] => some ds
    | some rest => lines? fuel ds table rest
    | none =>
      match dropGap s with
      | '[' :: s =>
        match header? fuel ('[' :: s) with
        | none => none
        | some (isList, path, rest) =>
          match if isList then ds.extendTables? path else ds.defineTable? path with
          | none => none
          | some ds => lines? fuel ds path rest
      | s =>
        match keyValue? fuel s with
        | none => none
        | some (key, v, rest) =>
          match ds.define? table key v with
          | none => none
          | some ds => lines? fuel ds table rest

def definitions? (s : Text) : Option Definitions :=
  let s :=
    match s with
    | '\ufeff' :: s => s
    | s => s
  lines? (2 * s.length + 2) [] [] s

end TexCatalog.Toml
