import TexCatalog.Tree.Basic

/-!
# Blocks as inline content

Blocks read from an argument count as running text: paragraphs and headings contribute their
content, raw blocks and code become inline nodes, and a space stands between the contributions.
-/

namespace TexCatalog

/-- A contribution goes behind what is there, with a space between them. -/
def contribute (out content : List Inline) : List Inline :=
  if out.isEmpty then content else out ++ .space :: content

mutual

def flattenBlock (out : List Inline) : Block → List Inline
  | .para content => contribute out content
  | .plain content => contribute out content
  | .header _ _ content => contribute out content
  | .raw format t => contribute out [.raw format t]
  | .code attr t => contribute out [.code attr t]
  | .div _ content => flattenOnto out content
  | .quote content => flattenOnto out content
  | .bullets items => flattenItems out items
  | .numbered _ items => flattenItems out items
  | .rule => out

def flattenOnto (out : List Inline) : List Block → List Inline
  | [] => out
  | block :: more => flattenOnto (flattenBlock out block) more

def flattenItems (out : List Inline) : List (List Block) → List Inline
  | [] => out
  | item :: more => flattenItems (flattenOnto out item) more

end

def flatten (blocks : List Block) : List Inline := flattenOnto [] blocks

end TexCatalog
