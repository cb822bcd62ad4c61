import TexCatalog.Diagnostics

/-!
# Reports

The report of a stage counts the files it handled and the problems it found. The report of a build
puts the stages together: each handles the same files, and the problems add up.
-/

namespace TexCatalog

/-- What a stage did and what it found. -/
structure Report where
  files : Nat := 0
  warnings : Nat := 0
  errors : Nat := 0
  deriving DecidableEq, Repr

namespace Report

def ofDiagnostics (files : Nat) (ds : Diagnostics) : Report where
  files := files
  warnings := ds.warningCount
  errors := ds.errorCount

def absorb (a b : Report) : Report where
  files := max a.files b.files
  warnings := a.warnings + b.warnings
  errors := a.errors + b.errors

def exitCode (r : Report) : Nat := if 0 < r.errors then 1 else 0

end Report

end TexCatalog
