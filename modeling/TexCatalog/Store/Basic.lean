import TexCatalog.Failure
import TexCatalog.Store.Path
import TexCatalog.Text.Map
import TexCatalog.Text.Utf8

/-!
# Stores

A store holds files and directories by their places. The directories around the working directory
and a few places of the system are there without being held. A file holds a text, or bytes that are
no text, which can be listed but not read as one.
-/

namespace TexCatalog

/-- What stands at a place. -/
inductive Node where
  | file (text : Text) (executable : Bool)
  | binary (bytes : Text) (executable : Bool)
  | directory
  /-- What is written to it is lost, and it is empty when it is read. -/
  | sink
  deriving DecidableEq, Repr

namespace Node

def isDirectory : Node → Bool
  | .directory => true
  | _ => false

def isFile : Node → Bool
  | .file .. | .binary .. => true
  | _ => false

def isExecutable : Node → Bool
  | .file _ executable | .binary _ executable => executable
  | _ => false

def ofBytes (executable : Bool) (bytes : Text) : Node :=
  match Text.ofBytes? bytes with
  | some text => .file text executable
  | none => .binary bytes executable

def bytes? : Node → Option Text
  | .file text _ => some (Text.encode text)
  | .binary bytes _ => some bytes
  | .directory => none
  | .sink => some []

def setExecutable : Node → Node
  | .file text _ => .file text true
  | .binary bytes _ => .binary bytes true
  | node => node

end Node

/-- Files and directories by their places. -/
structure Store where
  nodes : TextMap Node

namespace Store

def empty : Store := ⟨∅⟩

def insert (s : Store) (place : Text) (node : Node) : Store := ⟨s.nodes.insert place node⟩

def systemDirectories : List Text :=
  ["/", "/bin", "/dev", "/etc", "/home", "/tmp", "/usr", "/usr/bin", "/var"]

def at? (s : Store) (place : Text) : Option Node :=
  if place = [] ∨ Path.isAround place ∨ systemDirectories.contains place then some .directory
  else if place = ("/dev/null" : Text) then some .sink
  else s.nodes.get? place

def step (s : Store) (place part : Text) : Except FileFault Text :=
  if !(s.at? place).any Node.isDirectory then .error .notDirectory
  else if part = ['.'] then .ok place
  else if part = ['.', '.'] then .ok (Path.above place)
  else if Path.isLongName part then .error .nameTooLong
  else if (s.at? (Path.join place part)).isSome then .ok (Path.join place part)
  else .error .notFound

/-- Go all parts of a path but the last: the directory that they lead to, and the last part. -/
def approach (s : Store) (path : Text) : Except FileFault (Text × Text) :=
  if path.contains (Char.ofNat 0) then .error .nulCharacter
  else if path = [] then .error .notFound
  else if Path.isLong path then .error .nameTooLong
  else
    match (Path.steps path).dropLast.foldlM s.step (Path.origin path) with
    | .error fault => .error fault
    | .ok directory =>
      if (s.at? directory).any Node.isDirectory then
        .ok (directory, (Path.steps path).getLast?.getD ['.'])
      else .error .notDirectory

def locate (s : Store) (path : Text) : Except FileFault Text :=
  match s.approach path with
  | .error fault => .error fault
  | .ok (directory, part) =>
    match s.step directory part with
    | .error fault => .error fault
    | .ok place =>
      if Path.endsOpen path ∧ !(s.at? place).any Node.isDirectory then .error .notDirectory
      else .ok place

def node? (s : Store) (path : Text) : Option Node :=
  match s.locate path with
  | .error _ => none
  | .ok place => s.at? place

def isDirectory (s : Store) (path : Text) : Bool := (s.node? path).any Node.isDirectory

def isFile (s : Store) (path : Text) : Bool := (s.node? path).any Node.isFile

def read (s : Store) (path : Text) : Except FileFault Text :=
  match s.locate path with
  | .error fault => .error fault
  | .ok place =>
    match s.at? place with
    | none => .error .notFound
    | some .directory => .error .isDirectory
    | some (.binary ..) => .error .notUnicode
    | some .sink => .ok []
    | some (.file text _) => .ok text

def readBytes (s : Store) (path : Text) : Except FileFault Text :=
  match s.locate path with
  | .error fault => .error fault
  | .ok place => ((s.at? place).bind Node.bytes?).elim (.error .isDirectory) .ok

def placeFor (s : Store) (path : Text) : Except FileFault Text :=
  match s.approach path with
  | .error fault => .error fault
  | .ok (directory, name) =>
    if Path.isDots name ∨ Path.endsOpen path then .error .isDirectory
    else if Path.isLongName name then .error .nameTooLong
    else if (s.at? (Path.join directory name)).any Node.isDirectory then .error .isDirectory
    else .ok (Path.join directory name)

/-- Write a file. One that is there stays executable if it was. -/
def writeNode (s : Store) (path : Text) (node : Bool → Node) : Except FileFault Store :=
  (s.placeFor path).map fun place =>
    match s.at? place with
    | some .sink => s
    | old => s.insert place (node (old.any Node.isExecutable))

def write (s : Store) (path text : Text) : Except FileFault Store :=
  s.writeNode path fun executable => .file text executable

def writeBytes (s : Store) (path bytes : Text) : Except FileFault Store :=
  s.writeNode path fun executable => .ofBytes executable bytes

def createDirectory (s : Store) (path : Text) : Except FileFault Store :=
  match s.approach path with
  | .error fault => .error fault
  | .ok (directory, name) =>
    if Path.isDots name then .error .exists
    else if Path.isLongName name then .error .nameTooLong
    else if (s.at? (Path.join directory name)).isSome then .error .exists
    else .ok (s.insert (Path.join directory name) .directory)

/-- Create a directory and those that hold it, as far as they are missing; the paths of the latter
are given from the inside. -/
def createWithin (path : Text) : List Text → Store → Except FileFault Unit × Store
  | holders, s =>
    match s.createDirectory path, holders with
    | .ok s, _ => (.ok (), s)
    | .error .notFound, holder :: more =>
      match createWithin holder more s with
      | (.error fault, s) => (.error fault, s)
      | (.ok (), s) =>
        match s.createDirectory path with
        | .ok s => (.ok (), s)
        | .error fault => (if s.isDirectory path then .ok () else .error fault, s)
    | .error fault, _ => (if s.isDirectory path then .ok () else .error fault, s)

/-- Create a directory and those that hold it. What has been created before a fault stays. -/
def createDirectories (s : Store) (path : Text) : Except FileFault Unit × Store :=
  if path = [] then (.ok (), s) else createWithin path (Path.holders path) s

def nameIn? (directory place : Text) : Option Text :=
  let name? := if directory = [] then some place else (Path.join directory []).isPrefixOf? place
  name?.filter fun name => !name.contains '/'

def list (s : Store) (path : Text) : Except FileFault (List (Text × Node)) :=
  match s.locate path with
  | .error fault => .error fault
  | .ok place =>
    if (s.at? place).any Node.isDirectory then
      .ok (s.nodes.entries.filterMap fun e => (nameIn? place e.1).map fun name => (name, e.2))
    else .error .notDirectory

def remove (s : Store) (path : Text) : Store :=
  match s.locate path with
  | .error _ => s
  | .ok place =>
    ⟨.ofList (s.nodes.entries.filter fun e =>
      e.1 ≠ place && !(Path.join place []).isPrefixOf e.1)⟩

/-- The places of the working directory at which a store has something else than an older one, with
what that is. -/
def changes (old new : Store) : List (Text × Node) :=
  new.nodes.entries.filter fun e =>
    Path.isInside e.1 && (old.nodes.get? e.1).all fun node => node.bytes? ≠ e.2.bytes?

end Store

end TexCatalog
