import TexCatalog.Walk.Expander
import TexCatalog.Source.Clean

/-!
# Walking a page

A page is read by a reader, walked with the expander of all forms, and gives its tree, its record
and the problems found. A form may give parts of its text back to the reader. What the reader for
the source language gives for them is shorter than the text, so an expander with one level more
than the text has characters is never exhausted.
-/

namespace TexCatalog

/-- Turns page source into blocks, perhaps with the help of files. -/
structure Reader where
  read : Text → Stage (List Block)
  /-- How many levels of forms within forms a raw text may lead to. -/
  levels : Text → Nat

/-- The reader for the source language of the catalogue; it gives raw texts that are shorter than
what it is given. -/
def sourceReader : Reader where
  read s := return Source.readBlocks s
  levels s := s.length + 1

/-- What a walk knows besides the tree. -/
structure WalkContext where
  stem : Text
  reader : Reader
  bibliography : Bibliography

def WalkContext.read (ctx : WalkContext) (text : Text) : Walk (List Block) :=
  .ofStage (ctx.reader.read text)

namespace Expander

def idle (stem : Text) : Expander where
  block text := do
    .report ⟨.warning, stem, "unrecognized block macro: " ++ excerpt text⟩
    return [.raw .tex text]
  inline _ := return none

/-- What forms see of a walk whose arguments are walked with `inner`. -/
def formContext (ctx : WalkContext) (inner : Expander) : FormContext where
  stem := ctx.stem
  bibliography := ctx.bibliography
  plainText text := do return Text.trim (plainText (flatten (← ctx.read text)))
  blocks text := do walkBlocks ctx.stem inner (← ctx.read text)
  inlines text := do walkInlines ctx.stem inner (flatten (← ctx.read text))

section

variable (forms : Vocabulary)

def expandInline (ctx : WalkContext) (inner : Expander) (text : Text) :
    Walk (Option (List Inline)) := do
  match ← Form.expandFirst (formContext ctx inner) text forms.inlines with
  | none => return none
  | some nodes =>
    .note (observeInlines nodes)
    return some nodes

/-- Expand a block by the block forms, else by the inline forms, whose result is put into a
paragraph unless it is empty. -/
def expandBlock (ctx : WalkContext) (inner : Expander) (text : Text) : Walk (List Block) := do
  match ← Form.expandFirst (formContext ctx inner) text forms.blocks with
  | some blocks =>
    .note (observeBlocks blocks)
    return blocks
  | none =>
    match ← expandInline forms ctx inner text with
    | some [] => return []
    | some nodes => return [.para nodes]
    | none => (idle ctx.stem).block text

/-- The expander whose forms walk their arguments with `inner`. -/
def ofInner (ctx : WalkContext) (inner : Expander) : Expander where
  block := expandBlock forms ctx inner
  inline := expandInline forms ctx inner

def ofDepth (ctx : WalkContext) : Nat → Expander
  | 0 => idle ctx.stem
  | depth + 1 => ofInner forms ctx (ofDepth ctx depth)

def full (ctx : WalkContext) : Expander where
  block text := (ofDepth forms ctx (ctx.reader.levels text)).block text
  inline text := (ofDepth forms ctx (ctx.reader.levels text)).inline text

end

end Expander

/-- A page with its tree. -/
structure Artifact where
  record : PageRecord
  blocks : List Block

/-- A walked page and the problems found on it. -/
structure Walked where
  artifact : Artifact
  diagnostics : Diagnostics

def Walk.finish (stem : Text) (walk : Walk (List Block)) : Stage Walked := fun s =>
  match walk s with
  | (.error e, _, s) => (.error e, s)
  | (.ok blocks, notes, s) =>
    (.ok ⟨⟨{ notes.findings with stem }, blocks⟩, notes.diagnostics⟩, s)

def walkDocument (ctx : WalkContext) (blocks : List Block) : Stage Walked :=
  (walkBlocks ctx.stem (.full Form.vocabulary ctx) blocks).finish ctx.stem

def walkPage (forms : Vocabulary) (ctx : WalkContext) (source : Text) : Walk (List Block) := do
  walkBlocks ctx.stem (.full forms ctx) (← ctx.read (Source.clean source))

def walkSource (ctx : WalkContext) (source : Text) : Stage Walked :=
  (walkPage Form.vocabulary ctx source).finish ctx.stem

end TexCatalog
