import Std.Time.Zoned
import TexCatalog.Site.Command

/-!
# Command line

A run takes the files below the working directory into a store, meets the request of the command
line there, and writes back what has changed. Hidden directories are left alone.
-/

namespace TexCatalog.CommandLine

def maxDepth : Nat := 64

/-- What the bytes of a file are. A text that names its interpreter may be run. -/
def nodeOfBytes (bytes : ByteArray) : Node :=
  let bytes := bytes.toList.map fun byte => Char.ofNat byte.toNat
  .ofBytes (("#!" : Text).isPrefixOf bytes) bytes

/-- Take the entries of a directory into a store; those that cannot be read are left out. -/
def takeDirectory : Nat → Text → Array IO.FS.DirEntry → Store → IO Store
  | 0, _, _, s => return s
  | depth + 1, directory, entries, s =>
    entries.foldlM (fun s entry => takeEntry depth directory entry s <|> return s) s
where
  takeEntry (depth : Nat) (directory : Text) (entry : IO.FS.DirEntry) (s : Store) : IO Store := do
    let name := entry.fileName.toList
    let place := Path.join directory name
    match (← entry.path.metadata).type with
    | .dir =>
      if name.head? = some '.' then return s
      else takeDirectory depth place (← entry.path.readDir) (s.insert place .directory)
    | .file => return s.insert place (nodeOfBytes (← IO.FS.readBinFile entry.path))
    | _ => return s

def workingStore : IO Store := do
  takeDirectory maxDepth [] (← (← IO.currentDir).readDir) .empty

def putNode (place : Text) : Node → IO Unit
  | .file text _ => IO.FS.writeFile (String.ofList place) (String.ofList text)
  | .directory => IO.FS.createDirAll (String.ofList place)
  | .binary bytes _ =>
    IO.FS.writeBinFile (String.ofList place) ⟨(bytes.map fun c => c.toNat.toUInt8).toArray⟩
  | .sink => return ()

def environment : IO (TextMap Text) :=
  Config.variableNames.foldlM (fun env name => do
    match ← IO.getEnv (String.ofList name) with
    | some value => return env.insert name value.toList
    | none => return env) ∅

def today : IO Date := do
  let d ← Std.Time.PlainDate.now
  return ⟨d.year.toInt, d.month.toNat, d.day.toNat⟩

def usage : Text :=
  "Usage: symcat [--config FILE] COMMAND\n\nCommands:\n" ++
    ("  walk [FILES]...  Walk sources into per-page artifacts\n" : Text) ++
    "  merge            Merge all artifacts into the site indexes\n" ++
    "  render           Render every artifact to HTML\n" ++
    "  build            Walk, merge and render\n"

def reportLine (r : Report) : Text :=
  Text.ofNat r.files ++ " files, " ++ Text.ofNat r.warnings ++ " warnings, " ++
    Text.ofNat r.errors ++ " errors"

def announce : Ending → IO Unit
  | .report r => IO.eprintln (String.ofList (reportLine r))
  | .failure e => IO.eprintln (String.ofList e.message)
  | .help => IO.print (String.ofList usage)
  | .version => IO.println "symcat 0.1.0"
  | .misuse => IO.eprint (String.ofList usage)

end TexCatalog.CommandLine

open TexCatalog CommandLine in
def main (args : List String) : IO UInt32 := do
  let env ← environment
  let start ← workingStore
  let (ending, store) := (Request.ofTexts (args.map String.toList)).meet env.get? (← today) start
  (start.changes store).forM fun e => putNode e.1 e.2
  announce ending
  return ending.exitStatus.toUInt32
