import TexCatalog.Form.Inline
import TexCatalog.Form.RecordText

/-!
# Block forms

The commands and environments that stand on lines of their own, and what each of them is expanded
to.
-/

namespace TexCatalog.Form

def theoremNames : List Text :=
  ["definition", "proposition", "theorem", "problem", "example", "lemma", "conjecture", "remark",
    "proof", "question", "solution"]

def specialBlocks : List Text := ["polynomialtable"]

def capitalize : Text → Text
  | [] => []
  | c :: s => c.toUpper :: s

def blockSpace (_ : FormContext) (inv : Invocation) : Walk (Option (List Block)) :=
  return some [.div (.ofClasses ["vspace", inv.name]) []]

def pageMeta (ctx : FormContext) (inv : Invocation) : Walk (Option (List Block)) := do
  let value ← ctx.plainText (inv.arg 0)
  .note (if inv.name = ("metatitle" : Text) then { title := some value }
    else if inv.name = ("metadescription" : Text) then { description := some value }
    else { keywords := some value })
  return some []

def styleRules (_ : FormContext) (inv : Invocation) : Walk (Option (List Block)) := do
  .note { css := some inv.body }
  return some []

def specialBlock (_ : FormContext) (inv : Invocation) : Walk (Option (List Block)) :=
  if specialBlocks.contains (inv.arg 0) then
    return some [.div ((Attr.ofClasses ["special-block"]).set "block" (inv.arg 0)) []]
  else return none

def blockQuote (ctx : FormContext) (inv : Invocation) : Walk (Option (List Block)) := do
  return some [.quote (← ctx.blocks inv.body)]

/-- The title of a box behind its name, if it is not blank. -/
def boxTitle (ctx : FormContext) (optional : Option Text) : Walk (List Inline) :=
  let title := Text.trim (optional.getD [])
  if title = [] then return []
  else do return .text " (" :: (← ctx.inlines title) ++ [.text ")"]

def theoremBox (ctx : FormContext) (inv : Invocation) : Walk (Option (List Block)) := do
  let title ← boxTitle ctx inv.optional
  let content ← ctx.blocks inv.body
  let attr := Attr.ofClasses ["env", inv.name]
  return some [.div (if inv.starred then attr.addClass "collapsible" else attr)
    (.para (.styled .strong [.text (capitalize inv.name)] :: title) :: content)]

def family (ctx : FormContext) (inv : Invocation) : Walk (Option (List Block)) :=
  let id := Text.trim (inv.optional.getD [])
  if id = [] then return none
  else do
    let title ← ctx.inlines (inv.arg 0)
    .note { sections := [{ id, title := Text.trim (plainText title) }], labels := .singleton id }
    return some [.header 2 ((Attr.ofId id).addClass "family") title]

def polydata (_ : FormContext) (inv : Invocation) : Walk (Option (List Block)) :=
  if inv.arg 0 = [] then return none
  else do
    .note { records := TextMap.empty.insert (inv.arg 0) (parseRecord inv.body) }
    return some []

def figure (ctx : FormContext) (inv : Invocation) : Walk (Option (List Block)) := do
  return some [.div (.ofClasses ["figure"]) (← ctx.blocks inv.body)]

def topicSection (ctx : FormContext) (inv : Invocation) : Walk (Option (List Block)) := do
  let title ← ctx.inlines (inv.arg 0)
  let cards ← ctx.blocks inv.body
  return some [.header 2 (.ofClasses ["topic-section"]) title,
    .div (.ofClasses ["topic-card-grid"]) cards]

def table (_ : FormContext) (inv : Invocation) : Walk (Option (List Block)) :=
  return some [.raw .table inv.source]

def blockForms : List (Form Block) :=
  [⟨Pattern.command spaceCommands, blockSpace⟩,
   ⟨(Pattern.command ["metatitle", "metadescription", "metakeywords"]).withArgs 1, pageMeta⟩,
   ⟨Pattern.environment ["cssvariables"], styleRules⟩,
   ⟨(Pattern.command ["specialblock"]).withArgs 1, specialBlock⟩,
   ⟨Pattern.environment ["quote", "blockquote"], blockQuote⟩,
   ⟨((Pattern.environment theoremNames).withStar).withOptional .allowed, theoremBox⟩,
   ⟨((Pattern.command ["family"]).withOptional .required).withArgs 1, family⟩,
   ⟨(Pattern.environment ["polydata"]).withArgs 1, polydata⟩,
   ⟨Pattern.environment ["figurefreeze"], figure⟩,
   ⟨(Pattern.environment ["topicsection"]).withArgs 1, topicSection⟩,
   ⟨(Pattern.environment ["ytableau"]).withOptional .allowed, table⟩,
   ⟨(Pattern.environment ["array", "rtabular"]).withArgs 1, table⟩,
   ⟨(Pattern.command ["ytab"]).withArgs 1, table⟩]

def vocabulary : Vocabulary := ⟨blockForms, inlineForms⟩

end TexCatalog.Form
