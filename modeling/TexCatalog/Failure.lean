import TexCatalog.Signal
import TexCatalog.Text.Classes

/-!
# Failures

What stops a stage: a file that cannot be read, data of the wrong form, a setting without meaning.
Mistakes in the contents of pages are no failures; they are reported as diagnostics.
-/

namespace TexCatalog

inductive FileFault where
  | notFound
  | isDirectory
  | notDirectory
  | exists
  | denied
  | notProgram
  | notUnicode
  | nameTooLong
  | notEmpty
  | nulCharacter
  | nulInCommand
  deriving DecidableEq, Repr

namespace FileFault

def reason : FileFault → Text
  | .notFound => "No such file or directory"
  | .isDirectory => "Is a directory"
  | .notDirectory => "Not a directory"
  | .exists => "File exists"
  | .denied => "Permission denied"
  | .notProgram => "Exec format error"
  | .notUnicode => "stream did not contain valid UTF-8"
  | .nameTooLong => "File name too long"
  | .notEmpty => "Directory not empty"
  | .nulCharacter => "file name contained an unexpected NUL byte"
  | .nulInCommand => "nul byte found in provided data"

/-- The number that the system has for a fault, if it is the system that finds it. -/
def number? : FileFault → Option Nat
  | .notFound => some 2
  | .notProgram => some 8
  | .denied => some 13
  | .exists => some 17
  | .notDirectory => some 20
  | .isDirectory => some 21
  | .nameTooLong => some 36
  | .notEmpty => some 39
  | .notUnicode | .nulCharacter | .nulInCommand => none

def message (fault : FileFault) : Text :=
  match fault.number? with
  | some n => fault.reason ++ " (os error " ++ Text.ofNat n ++ [')']
  | none => fault.reason

end FileFault

/-- How a JSON text fails to be what is read. -/
inductive JsonFault where
  | syntactic
  | shape
  deriving DecidableEq, Repr

namespace JsonFault

def message : JsonFault → Text
  | .syntactic => "not a JSON text"
  | .shape => "not of the expected shape"

end JsonFault

inductive ConverterFault where
  | notStarted (program : Text) (fault : FileFault)
  | exited (status : Nat) (complaint : Text)
  | killed (signal : Nat) (complaint : Text)
  /-- It ended without reading all that it was given. -/
  | unread
  deriving DecidableEq, Repr

namespace ConverterFault

def message : ConverterFault → Text
  | .notStarted program fault => program ++ ": " ++ fault.message
  | .exited status complaint => "exit status: " ++ Text.ofNat status ++ ": " ++ complaint
  | .killed signal complaint =>
    "signal: " ++ Text.ofNat signal ++ Signal.label signal ++ ": " ++ complaint
  | .unread => "Broken pipe (os error 32)"

end ConverterFault

/-- Why a stage was stopped. -/
inductive Failure where
  | json (fault : JsonFault)
  | file (path : Text) (fault : FileFault)
  /-- All entries of a field list are malformed; there are `count` of them. -/
  | malformedEntries (count : Nat)
  | converter (fault : ConverterFault)
  | converterOutput
  | bibliographyRead (path : Text) (fault : FileFault)
  | bibliographyFormat (path : Text) (cause : Failure)
  | missingArtifacts (directory : Text)
  | noArtifacts (directory : Text)
  | noBody (template : Text)
  | configFile
  | setting (name : Text) (problem : Text)
  | splitCharacter
  deriving DecidableEq, Repr

namespace Failure

def message : Failure → Text
  | .json fault => "JSON error: " ++ fault.message
  | .file path fault => "IO error on " ++ path ++ ": " ++ fault.message
  | .malformedEntries count =>
    "Parse error: Invalid BibTeX: " ++ Text.ofNat count ++ " malformed entries, none readable"
  | .converter fault => "Parse error: External parser failed: " ++ fault.message
  | .converterOutput => "Parse error: Invalid parser output"
  | .bibliographyRead path fault =>
    "Resolution error: Failed to read bibliography file: " ++ path ++ ": " ++ fault.message
  | .bibliographyFormat path cause =>
    "Resolution error: Invalid bibliography database: " ++ path ++ ": " ++ cause.message
  | .missingArtifacts directory =>
    "Resolution error: Missing intermediate artifact: " ++ directory
  | .noArtifacts directory =>
    "Resolution error: Missing intermediate artifact: no artifacts in " ++ directory
  | .noBody template =>
    "Render error: Template error: " ++ template ++ " has no \x7b\x7bbody\x7d\x7d placeholder"
  | .configFile => "Configuration error: Invalid configuration file"
  | .setting name problem =>
    "Configuration error: Invalid value for " ++ name ++ ": " ++ problem
  | .splitCharacter => "a text was to be cut inside a character"

end Failure

end TexCatalog
