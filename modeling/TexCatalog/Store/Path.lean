import TexCatalog.Text.Basic

/-!
# Paths

A path is a text with slashes between its parts. It leads to a place part by part, from the root or
from the working directory. A place has one text: the names from the working directory to it, from
the root to it, or, outside the working directory, from a directory around it, for which `..` is
written.
-/

namespace TexCatalog.Path

def steps (path : Text) : List Text := (Text.split '/' path).filter (· ≠ [])

def origin (path : Text) : Text := if path.head? = some '/' then ['/'] else []

def endsOpen (path : Text) : Bool := path.getLast? == some '/'

/-- The part that stays where it is, and the one that goes to the directory around. -/
def isDots (part : Text) : Bool := part == ['.'] || part == ['.', '.']

def byteLength (t : Text) : Nat := t.foldl (fun n c => n + c.utf8Size) 0

def isLongName (name : Text) : Bool := 255 < byteLength name

def isLong (path : Text) : Bool := 4095 < byteLength path

def isAround (place : Text) : Bool := (Text.split '/' place).all (· == ['.', '.'])

def isInside (place : Text) : Bool :=
  place.head? != some '/' && (Text.split '/' place).head? != some ['.', '.']

/-- The parts of a path that count; a dot does so at the start only. -/
def parts (path : Text) : List Text :=
  match Text.split '/' path with
  | [] => []
  | first :: more =>
    (if first = [] then [] else [first]) ++ more.filter fun part => part ≠ [] ∧ part ≠ ['.']

def fileName? (path : Text) : Option Text :=
  match (parts path).getLast? with
  | none => none
  | some last => if last = ['.'] ∨ last = ['.', '.'] then none else some last

/-- The stem and the extension of a file name; a dot at the start belongs to the stem. -/
def splitName (name : Text) : Text × Option Text :=
  match Text.cutLast? ['.'] name with
  | none => (name, none)
  | some (stem, extension) => if stem = [] then (name, none) else (stem, some extension)

def stem (path : Text) : Text := (((fileName? path).map splitName).map Prod.fst).getD []

def extension? (path : Text) : Option Text := ((fileName? path).map splitName).bind Prod.snd

/-- A name inside a directory; a name that begins with a slash stands for itself. -/
def join (directory name : Text) : Text :=
  if name.head? = some '/' then name
  else if directory = [] ∨ directory.getLast? = some '/' then directory ++ name
  else directory ++ '/' :: name

/-- The path without a slash or a dot at its end. -/
def dropTail (s : Text) : Text :=
  match s with
  | [] => []
  | '/' :: s => dropTail s
  | '.' :: '/' :: s => dropTail s
  | s => s

/-- The path of the directory that holds a file, empty for a file in the working directory. -/
def parent (path : Text) : Text :=
  (dropTail ((dropTail path.reverse).dropWhile (· ≠ '/'))).reverse

/-- The place that holds another place; the root holds itself. -/
def above (place : Text) : Text :=
  if place = [] then ['.', '.']
  else if isAround place then place ++ ['/', '.', '.']
  else
    match Text.cutLast? ['/'] place with
    | none => []
    | some (front, _) => if front = [] then ['/'] else front

def holders (path : Text) : List Text := go path.length (parent path)
where
  /-- A path and those of the directories that hold it, `fuel` of them at most. -/
  go : Nat → Text → List Text
  | 0, _ => []
  | fuel + 1, path => if path = [] then [] else path :: go fuel (parent path)

end TexCatalog.Path
