import TexCatalog.Proofs.BalancedBodies
import TexCatalog.Source.Block

/-!
# The canonical spelling

Blocks that a page source can spell have one spelling: a command for each node, a blank line between
blocks, and the items of a list each on lines of its own. `CanonicalBlocks` says of which blocks the
spelling tells everything: text that is not looked into, such as code and math, must not hold what
ends it, and neighbours must not be merged when they are read.
-/

namespace TexCatalog

namespace Source

open Text

def styleCommand : Style → Text
  | .emphasis => "emph"
  | .strong => "textbf"
  | .smallCaps => "textsc"
  | .underline => "underline"
  | .strikeout => "sout"
  | .superscript => "textsuperscript"
  | .subscript => "textsubscript"

def spellCommand (name argument : Text) : Text := '\\' :: (name ++ '{' :: (argument ++ ['}']))

mutual

def spellInline : Inline → Text
  | .text t => t
  | .space => [' ']
  | .softBreak => ['\n']
  | .lineBreak => ['\\', '\\']
  | .math _ t => '$' :: (t ++ ['$'])
  | .code _ t => spellCommand "texttt" t
  | .styled style content => spellCommand (styleCommand style) (spellInlines content)
  | .link _ content target =>
    spellCommand "href" target.url ++ '{' :: (spellInlines content ++ ['}'])
  | _ => []

def spellInlines : List Inline → Text
  | [] => []
  | node :: more => spellInline node ++ spellInlines more

end

def sectionCommand (level : UInt8) : Text :=
  if level = 1 then "section" else if level = 2 then "subsection" else "subsubsection"

mutual

def spellBlock : Block → Text
  | .para content => spellInlines content
  | .header level attr content =>
    spellCommand (sectionCommand level) (spellInlines content) ++
      if attr.id = [] then [] else spellCommand "label" attr.id
  | .bullets items => enclose "itemize" ('\n' :: spellItems items)
  | .numbered _ items => enclose "enumerate" ('\n' :: spellItems items)
  | _ => []

def spellBlocks : List Block → Text
  | [] => []
  | [block] => spellBlock block
  | block :: next :: more => spellBlock block ++ '\n' :: '\n' :: spellBlocks (next :: more)

def spellItems : List (List Block) → Text
  | [] => []
  | item :: more => "\\item " ++ spellBlocks item ++ '\n' :: spellItems more

end

def Closed (t : Text) : Prop := braced? ('{' :: (t ++ ['}'])) = some (t, [])

instance (t : Text) : Decidable (Closed t) :=
  inferInstanceAs (Decidable (braced? ('{' :: (t ++ ['}'])) = some (t, [])))

def IsWord (t : Text) : Prop :=
  t ≠ [] ∧ (∀ c ∈ t, ¬c.isBlank ∧ c ∉ ("\\$\x7b\x7d~%" : Text)) ∧
    ∀ pair ∈ [("--" : Text), "``", ['\'', '\'']], ¬occursIn pair t

instance (t : Text) : Decidable (IsWord t) :=
  decidable_of_iff (t ≠ [] ∧
      (t.all fun c => !c.isBlank && !("\\$\x7b\x7d~%" : Text).contains c) ∧
      [("--" : Text), "``", ['\'', '\'']].all fun pair => !occursIn pair t)
    (by simp [IsWord, List.all_eq_true])

structure Place where
  grouped : Bool
  /-- In a paragraph, which ends in front of some lines. -/
  byLine : Bool
  /-- In a list, which is cut in front of its items. -/
  listed : Bool

def listMarks : List Text := ["\\item", "\\begin", "\\end"]

def Markless (t : Text) : Prop := ∀ mark ∈ listMarks, ¬occursIn mark t

namespace Place

def argument (p : Place) : Place := { p with grouped := true }

structure Admits (p : Place) (close : Char) (t : Text) : Prop where
  lines : p.byLine → ∀ line ∈ (segments (t ++ [close])).tail, ¬endsParagraph line
  markless : p.listed → Markless t

def MayMeet (p : Place) : Inline → Inline → Prop
  | .text _, .text _ => False
  | .space, .space | .space, .softBreak | .softBreak, .space | .softBreak, .softBreak => False
  | .lineBreak, .text _ => ¬p.listed
  | _, _ => True

def Meets (p : Place) (node : Inline) (more : List Inline) : Prop :=
  ∀ next ∈ more.head?, p.MayMeet node next

end Place

inductive Place.Leaf (p : Place) : Inline → Prop
  | word {t : Text} : IsWord t → p.Leaf (.text t)
  | space : p.Leaf .space
  | softBreak : p.Leaf .softBreak
  | lineBreak : p.Leaf .lineBreak
  | math {t : Text} : t ≠ [] → cutUnescaped? ['$'] (t ++ ['$']) = some (t, []) →
    (p.grouped → Closed t) → p.Admits '$' t → p.Leaf (.math .inline t)
  | code {t : Text} : Closed t → p.Admits '}' t → p.Leaf (.code .empty t)

/-- Running text that can be read again from its spelling. -/
inductive CanonicalInlines : Place → List Inline → Prop
  | nil {p : Place} : CanonicalInlines p []
  | leaf {p : Place} {node : Inline} {more : List Inline} : p.Leaf node → p.Meets node more →
    CanonicalInlines p more → CanonicalInlines p (node :: more)
  | styled {p : Place} (style : Style) {content more : List Inline} :
    CanonicalInlines p.argument content → p.Meets (.styled style content) more →
    CanonicalInlines p more → CanonicalInlines p (.styled style content :: more)
  | link {p : Place} {url : Text} {content more : List Inline} : Closed url → p.Admits '}' url →
    CanonicalInlines p.argument content → p.Meets (.link .empty content ⟨url, []⟩) more →
    CanonicalInlines p more → CanonicalInlines p (.link .empty content ⟨url, []⟩ :: more)

def IsGap : Inline → Prop
  | .space | .softBreak => True
  | _ => False

/-- Blocks that can be read again from their spelling. An item of a list does not begin with a group
in brackets, which would be its label. -/
inductive CanonicalBlocks : Bool → List Block → Prop
  | nil {listed : Bool} : CanonicalBlocks listed []
  | para {listed : Bool} {content : List Inline} {more : List Block} : content ≠ [] →
    (∀ first ∈ content.head?, ¬IsGap first) → (∀ last ∈ content.getLast?, ¬IsGap last) →
    CanonicalInlines ⟨false, true, listed⟩ content → CanonicalBlocks listed more →
    CanonicalBlocks listed (.para content :: more)
  | header {listed : Bool} {level : UInt8} {id : Text} {content : List Inline} {more : List Block} :
    level ∈ [1, 2, 3] → trim id = id → Closed id → (listed → Markless id) →
    CanonicalInlines ⟨true, false, listed⟩ content → CanonicalBlocks listed more →
    CanonicalBlocks listed (.header level (.ofId id) content :: more)
  | bullets {listed : Bool} {items : List (List Block)} {more : List Block} :
    (∀ item ∈ items, CanonicalBlocks true item) →
    (∀ item ∈ items, bracketed? (spellBlocks item) = none) → CanonicalBlocks listed more →
    CanonicalBlocks listed (.bullets items :: more)
  | numbered {listed : Bool} {items : List (List Block)} {more : List Block} :
    (∀ item ∈ items, CanonicalBlocks true item) →
    (∀ item ∈ items, bracketed? (spellBlocks item) = none) → CanonicalBlocks listed more →
    CanonicalBlocks listed (.numbered sourceNumbering items :: more)

end Source

end TexCatalog
