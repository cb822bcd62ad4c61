import TexCatalog.Bibliography.Label
import TexCatalog.Form.Basic
import TexCatalog.Tree.PlainText

/-!
# Inline forms

The commands that stand in running text, and what each of them is expanded to.
-/

namespace TexCatalog.Form

def leadingDecimal? (s : Text) : Option (Text × Text) :=
  let s := Text.trimStart s
  let whole := s.takeWhile Text.isDecimalDigit
  match s.dropWhile Text.isDecimalDigit with
  | '.' :: rest =>
    let fraction := rest.takeWhile Text.isDecimalDigit
    if fraction ≠ [] then some (whole, fraction)
    else if whole ≠ [] then some (whole, [])
    else none
  | _ => if whole ≠ [] then some (whole, []) else none

def percent (whole fraction : Text) : Nat :=
  let m := (whole ++ fraction).foldl (fun n c => n * 10 + (c.toNat - '0'.toNat)) 0
  let x := (Float.ofScientific m true fraction.length * 100.0).round
  if x < 9223372036854775807.0 then x.toUInt64.toNat else 9223372036854775807

/-- The width for a scale such as `0.8\linewidth`; without a number in ASCII digits it is `auto`. -/
def imageWidth (scale : Option Text) : Text :=
  match scale.bind leadingDecimal? with
  | none => "auto"
  | some (whole, fraction) =>
    if (whole ++ fraction).all Char.isDigit then Text.ofNat (percent whole fraction) ++ "%"
    else "auto"

def classed (classes : List Text) (content : List Inline) : Inline :=
  .span (.ofClasses classes) content

def defin (ctx : FormContext) (inv : Invocation) : Walk (Option (List Inline)) := do
  return some [classed ["defin"] (← ctx.inlines (inv.arg 0))]

def icon (_ : FormContext) (inv : Invocation) : Walk (Option (List Inline)) :=
  return some [.span ((Attr.ofClasses ["icon"]).set "data-icon" (inv.arg 0)) []]

def includeImage (_ : FormContext) (inv : Invocation) : Walk (Option (List Inline)) :=
  if inv.arg 0 = [] then return none
  else return some [.image (Attr.empty.set "width" (imageWidth inv.optional)) [] ⟨inv.arg 0, []⟩]

def oeisTitle : Text := "The On-Line Encyclopedia of Integer Sequences"

def oeis (_ : FormContext) (inv : Invocation) : Walk (Option (List Inline)) :=
  return some [.link .empty [.text (inv.arg 0)] ⟨"https://oeis.org/" ++ inv.arg 0, oeisTitle⟩]

def fileLink (ctx : FormContext) (inv : Invocation) : Walk (Option (List Inline)) := do
  return some [.link .empty (← ctx.inlines (inv.arg 1)) ⟨inv.arg 0, []⟩]

def hyperref (ctx : FormContext) (inv : Invocation) : Walk (Option (List Inline)) :=
  let label := Text.trim (inv.optional.getD [])
  if label = [] then return none
  else do return some [.crossRef .empty (← ctx.inlines (inv.arg 0)) label]

def reference (_ : FormContext) (inv : Invocation) : Walk (Option (List Inline)) :=
  if inv.arg 0 = [] then return none
  else return some [.crossRef .empty [] (inv.arg 0)]

def label (_ : FormContext) (inv : Invocation) : Walk (Option (List Inline)) :=
  if inv.arg 0 = [] then return none
  else return some [.span ((Attr.ofId (inv.arg 0)).addClass "label") []]

def enquote (ctx : FormContext) (inv : Invocation) : Walk (Option (List Inline)) := do
  return some [.quoted .double (← ctx.inlines (inv.arg 0))]

def citeKeys (argument : Text) : List Text :=
  ((Text.split ',' argument).map Text.trim).filter (· ≠ [])

def citeText (ctx : FormContext) (key : Text) : Walk Text :=
  match ctx.bibliography.get? key with
  | some entry => .ofExcept (Bibliography.displayLabel entry)
  | none => do
    ctx.error ("undefined citation key " ++ key)
    return "UNDEF:" ++ key

def citeLink (ctx : FormContext) (key : Text) : Walk Inline := do
  let text ← citeText ctx key
  .note (.ofCitation key)
  return .link ((Attr.ofClasses ["cite"]).set "data-cite" key) [.text text] ⟨'#' :: key, []⟩

def citeLinks (ctx : FormContext) : List Text → Walk (List Inline)
  | [] => return []
  | key :: more => do
    let link ← citeLink ctx key
    return link :: (← citeLinks ctx more)

/-- The note in front of the keys, with a comma behind it, if it is not blank. -/
def citeNote (ctx : FormContext) (optional : Option Text) : Walk (List Inline) :=
  let note := Text.trim (optional.getD [])
  if note = [] then return []
  else do return (← ctx.inlines note) ++ [.text ", "]

def cite (ctx : FormContext) (inv : Invocation) : Walk (Option (List Inline)) :=
  let keys := citeKeys (inv.arg 0)
  if keys = [] then return none
  else do
    let note ← citeNote ctx inv.optional
    let links ← citeLinks ctx keys
    let missing := keys.any fun key => !ctx.bibliography.contains key
    let classes : List Text := if missing then ["citation", "missing"] else ["citation"]
    return some [classed classes
      (.text "[" :: note ++ links.intersperse (.text ", ") ++ [.text "]"])]

def spaceCommands : List Text := ["smallskip", "medskip", "bigskip"]

def inlineSpace (ctx : FormContext) (inv : Invocation) : Walk (Option (List Inline)) := do
  ctx.warn ('\\' :: inv.name ++ " used inline, expected on its own line")
  return some [classed ["vspace", inv.name] []]

def inlineTable (ctx : FormContext) (inv : Invocation) : Walk (Option (List Inline)) := do
  ctx.warn "\\ytab used inline, expected on its own line"
  return some [classed ["inline-table"] [.raw .table inv.source]]

/-- A card that leads to a topic: its image and its title, with a description that is shown as plain
text. -/
def card (id : Text) (title description : List Inline) : Inline :=
  let thumbnail : Inline :=
    .image (.ofClasses ["topic-card-image"]) [] ⟨"thumbnails/" ++ id ++ ".svg", []⟩
  let attr := (Attr.ofClasses ["topic-card"]).set "title" (Text.trim (plainText description))
  .crossRef attr [thumbnail, classed ["topic-card-title"] title] id

def topicCard (ctx : FormContext) (inv : Invocation) : Walk (Option (List Inline)) :=
  let id := inv.arg 0
  if id = [] then return none
  else do
    let title ← ctx.inlines (inv.arg 1)
    let description ← ctx.inlines (inv.arg 2)
    return some [card id title description]

def todo (_ : FormContext) (inv : Invocation) : Walk (Option (List Inline)) := do
  .note { todos := [inv.arg 0] }
  return some []

def inlineForms : List (Form Inline) :=
  [⟨(Pattern.command ["defin"]).withArgs 1, defin⟩,
   ⟨(Pattern.command ["icon"]).withArgs 1, icon⟩,
   ⟨((Pattern.command ["includeimage"]).withOptional .allowed).withArgs 1, includeImage⟩,
   ⟨(Pattern.command ["oeis"]).withArgs 1, oeis⟩,
   ⟨(Pattern.command ["filelink"]).withArgs 2, fileLink⟩,
   ⟨((Pattern.command ["hyperref"]).withOptional .required).withArgs 1, hyperref⟩,
   ⟨(Pattern.command ["ref", "cref", "Cref"]).withArgs 1, reference⟩,
   ⟨(Pattern.command ["label"]).withArgs 1, label⟩,
   ⟨(Pattern.command ["enquote"]).withArgs 1, enquote⟩,
   ⟨((Pattern.command ["cite"]).withOptional .allowed).withArgs 1, cite⟩,
   ⟨Pattern.command spaceCommands, inlineSpace⟩,
   ⟨(Pattern.command ["ytab"]).withArgs 1, inlineTable⟩,
   ⟨(Pattern.command ["topiccard"]).withArgs 3, topicCard⟩,
   ⟨(Pattern.command ["todo"]).withArgs 1, todo⟩]

end TexCatalog.Form
