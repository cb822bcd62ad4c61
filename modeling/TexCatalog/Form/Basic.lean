import TexCatalog.Bibliography.Entry
import TexCatalog.Form.Pattern
import TexCatalog.Tree.Basic
import TexCatalog.Walk.Notes

/-!
# Forms

A form is a pattern with the expansion of its matches. An expansion may decline a match; then the
next form is tried, and a text that every form declines stays as it is.
-/

namespace TexCatalog

/-- What an expansion may ask of the walk it is part of. -/
structure FormContext where
  stem : Text
  bibliography : Bibliography
  plainText : Text → Walk Text
  blocks : Text → Walk (List Block)
  inlines : Text → Walk (List Inline)

namespace FormContext

def warn (ctx : FormContext) (message : Text) : Walk Unit :=
  .report ⟨.warning, ctx.stem, message⟩

def error (ctx : FormContext) (message : Text) : Walk Unit :=
  .report ⟨.error, ctx.stem, message⟩

end FormContext

/-- A pattern and what a match of it is expanded to; `none` declines the match. -/
structure Form (Node : Type) where
  pattern : Pattern
  expand : FormContext → Invocation → Walk (Option (List Node))

/-- The forms a walk knows, those of each kind in the order in which they are tried. -/
structure Vocabulary where
  blocks : List (Form Block)
  inlines : List (Form Inline)

namespace Form

def expandFirst {Node : Type} (ctx : FormContext) (text : Text) :
    List (Form Node) → Walk (Option (List Node))
  | [] => return none
  | form :: more =>
    match form.pattern.match? text with
    | none => expandFirst ctx text more
    | some inv => do
      match ← form.expand ctx inv with
      | some nodes => return some nodes
      | none => expandFirst ctx text more

end Form

end TexCatalog
