import TexCatalog.Diagnostics
import TexCatalog.Page.Record
import TexCatalog.Store.Stage

/-!
# Walks

A step of a walk gives a value and notes: what it found and the problems it reports. Steps are done
one after the other, and their notes are combined in that order; no step sees the notes of another.
A failure ends the walk and keeps the notes made up to it. Reading a text may change files, so a
walk passes the files on from step to step.
-/

namespace TexCatalog

/-- What a part of a walk leaves behind besides its value. -/
structure Notes where
  findings : Findings := {}
  diagnostics : Diagnostics := []

namespace Notes

def empty : Notes := {}

def combine (a b : Notes) : Notes where
  findings := a.findings.combine b.findings
  diagnostics := a.diagnostics ++ b.diagnostics

end Notes

/-- A value or the failure that stopped the walk, the notes, and the files it leaves. -/
def Walk (α : Type) : Type := Store → Except Failure α × Notes × Store

namespace Walk

variable {α β : Type}

def pure (a : α) : Walk α := fun s => (.ok a, {}, s)

def bind (x : Walk α) (f : α → Walk β) : Walk β := fun s =>
  match x s with
  | (.error e, m, s) => (.error e, m, s)
  | (.ok a, m, s) =>
    match f a s with
    | (r, n, s) => (r, m.combine n, s)

instance : Monad Walk where
  pure := Walk.pure
  bind := Walk.bind

def ofExcept (x : Except Failure α) : Walk α := fun s => (x, {}, s)

def ofStage (x : Stage α) : Walk α := fun s =>
  match x s with
  | (r, s) => (r, {}, s)

def note (f : Findings) : Walk Unit := fun s => (.ok (), { findings := f }, s)

def report (d : Diagnostic) : Walk Unit := fun s => (.ok (), { diagnostics := [d] }, s)

end Walk

end TexCatalog
