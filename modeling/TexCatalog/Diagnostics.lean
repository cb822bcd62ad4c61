import TexCatalog.Text.Basic

/-!
# Diagnostics

A mistake in the contents of a page is reported and never stops a stage. An error fails the build
in the end, a warning does not.
-/

namespace TexCatalog

inductive Severity where
  | warning
  | error
  deriving DecidableEq, Repr

/-- One reported problem. -/
structure Diagnostic where
  severity : Severity
  /-- The stem of the page, empty for a problem of the whole site. -/
  page : Text
  message : Text
  deriving DecidableEq, Repr

namespace Severity

def name : Severity → Text
  | .warning => "warning"
  | .error => "error"

end Severity

namespace Diagnostic

def line (d : Diagnostic) : Text :=
  if d.page = [] then d.severity.name ++ ": " ++ d.message
  else d.severity.name ++ ": " ++ d.page ++ ": " ++ d.message

def isError (d : Diagnostic) : Bool := d.severity == .error

def isWarning (d : Diagnostic) : Bool := d.severity == .warning

end Diagnostic

abbrev Diagnostics := List Diagnostic

namespace Diagnostics

def errors (ds : Diagnostics) : Diagnostics := ds.filter Diagnostic.isError

def warnings (ds : Diagnostics) : Diagnostics := ds.filter Diagnostic.isWarning

def errorCount (ds : Diagnostics) : Nat := (errors ds).length

def warningCount (ds : Diagnostics) : Nat := (warnings ds).length

def hasErrors (ds : Diagnostics) : Bool := 0 < errorCount ds

end Diagnostics

end TexCatalog
