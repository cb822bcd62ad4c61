import TexCatalog.Html.Tree
import TexCatalog.Proofs.EscapedText
import TexCatalog.Proofs.LayoutNodes

/-!
# Well nested markup

What it means for a text to be well nested markup is said of its characters alone: every angle
bracket belongs to a tag with a name from a fixed list, and tags are closed in the reverse order of
their opening. Whatever is printed without raw nodes is well nested, and so is the layout of a tree
without raw nodes of the target language.
-/

namespace TexCatalog

namespace Markup

def elementNames : List Text :=
  ["a", "blockquote", "code", "del", "details", "div", "em", "figure", "h1", "h2", "h3", "h4", "h5",
    "h6", "li", "ol", "p", "pre", "section", "span", "strong", "sub", "summary", "sup", "table",
    "tbody", "td", "th", "thead", "tr", "u", "ul"]

def voidNames : List Text := ["br", "hr", "img"]

def Inert (s : Text) : Prop := ∀ c ∈ s, c ≠ '<' ∧ c ≠ '>' ∧ c ≠ '"'

/-- What may stand behind a name in a tag: attributes, each with a quoted value. -/
inductive Attributes : Text → Prop
  | none : Attributes []
  | attribute {name value rest : Text} : Inert name → Inert value → Attributes rest →
      Attributes (' ' :: name ++ "=\"" ++ value ++ "\"" ++ rest)

/-- The rest of well nested markup behind tags that are still open, the last one first. -/
inductive Nested : List Text → Text → Prop
  | done : Nested [] []
  | char {c : Char} {opened : List Text} {rest : Text} : c ≠ '<' → c ≠ '>' → Nested opened rest →
      Nested opened (c :: rest)
  | start {name attrs : Text} {opened : List Text} {rest : Text} : name ∈ elementNames →
      Attributes attrs → Nested (name :: opened) rest →
      Nested opened ("<" ++ name ++ attrs ++ ">" ++ rest)
  | void {name attrs : Text} {opened : List Text} {rest : Text} : name ∈ voidNames →
      Attributes attrs → Nested opened rest → Nested opened ("<" ++ name ++ attrs ++ ">" ++ rest)
  | close {name : Text} {opened : List Text} {rest : Text} : Nested opened rest →
      Nested (name :: opened) ("</" ++ name ++ ">" ++ rest)

theorem Nested.inert {opened : List Text} {s rest : Text} (hs : Inert s)
    (h : Nested opened rest) : Nested opened (s ++ rest) := by
  induction s with
  | nil => exact h
  | cons c more ih =>
    have hc := hs c (List.mem_cons_self ..)
    exact .char hc.1 hc.2.1 (ih fun d hd => hs d (List.mem_cons_of_mem _ hd))

end Markup

namespace Html

open Markup

/-- Nothing is left in an escaped text that could be taken for markup. -/
theorem escape_inert (s : Text) : Inert (escape s) := fun _ => not_markup_of_mem_escape

theorem printAttributes_attributes (attrs : List Attribute) :
    Attributes (printAttributes attrs) := by
  induction attrs with
  | nil => exact .none
  | cons a more ih =>
    exact .attribute (escape_inert a.name) (escape_inert a.value) ih

theorem Tag.name_mem (tag : Tag) : tag.name ∈ elementNames := by
  cases tag with
  | heading level =>
    revert level
    decide_cbv
  | _ => decide_cbv

theorem VoidTag.name_mem (tag : VoidTag) : tag.name ∈ voidNames := by
  cases tag <;> decide_cbv

mutual

def RawFree : Html → Prop
  | .text _ => True
  | .raw _ => False
  | .element _ _ content => AllRawFree content
  | .void .. => True

def AllRawFree : List Html → Prop
  | [] => True
  | node :: more => node.RawFree ∧ AllRawFree more

end

mutual

theorem print_nested {opened : List Text} {rest : Text} (h : Nested opened rest) :
    ∀ node : Html, node.RawFree → Nested opened (node.print ++ rest)
  | .text t, _ => by
    rw [print]
    exact h.inert (escape_inert t)
  | .raw _, hraw => by
    rw [RawFree] at hraw
    exact hraw.elim
  | .element tag attrs content, hraw => by
    rw [RawFree] at hraw
    have hclose : Nested (tag.name :: opened) ("</" ++ tag.name ++ ">" ++ rest) := .close h
    have hcontent := printAll_nested hclose content hraw
    have hstart := Nested.start tag.name_mem (printAttributes_attributes attrs) hcontent
    simpa [print] using hstart
  | .void tag attrs, _ => by
    have hvoid := Nested.void tag.name_mem (printAttributes_attributes attrs) h
    simpa [print] using hvoid

/-- Markup without raw nodes is printed as well nested markup. -/
theorem printAll_nested {opened : List Text} {rest : Text} (h : Nested opened rest) :
    ∀ nodes : List Html, AllRawFree nodes → Nested opened (printAll nodes ++ rest)
  | [], _ => by
    rw [printAll]
    exact h
  | node :: more, hraw => by
    rw [AllRawFree] at hraw
    have hmore := printAll_nested h more hraw.2
    have hnode := print_nested hmore node hraw.1
    rwa [printAll, List.append_assoc]

end

end Html

/-! ## Markup of a layout

A layout makes raw nodes of raw nodes only, also in notes.
-/

namespace Html

def IsRaw : Html → Prop
  | .raw _ => True
  | _ => False

mutual

theorem rawFree_iff_all : ∀ node : Html, node.RawFree ↔ All (fun piece => ¬piece.IsRaw) node
  | .text t => by simp [RawFree, IsRaw]
  | .raw t => by simp [RawFree, IsRaw]
  | .void tag attrs => by simp [RawFree, IsRaw]
  | .element tag attrs content => by
    rw [RawFree, all_element, allRawFree_iff_allPieces content]
    exact ⟨fun h => ⟨not_false, h⟩, And.right⟩

theorem allRawFree_iff_allPieces :
    ∀ nodes : List Html, AllRawFree nodes ↔ AllPieces (fun piece => ¬piece.IsRaw) nodes
  | [] => by simp [AllRawFree]
  | node :: more => by
    rw [AllRawFree, allPieces_cons, rawFree_iff_all node, allRawFree_iff_allPieces more]

end

section

variable {node : Html} {nodes more : List Html}

@[simp] theorem rawFree_text (t : Text) : (text t).RawFree := by rw [RawFree]; trivial

@[simp] theorem rawFree_newline : newline.RawFree := rawFree_text _

@[simp] theorem rawFree_element {tag : Tag} {attrs : List Attribute} {content : List Html} :
    (element tag attrs content).RawFree ↔ AllRawFree content := by rw [RawFree]

@[simp] theorem allRawFree_nil : AllRawFree [] := by rw [AllRawFree]; trivial

@[simp] theorem allRawFree_cons :
    AllRawFree (node :: nodes) ↔ node.RawFree ∧ AllRawFree nodes := by rw [AllRawFree]

@[simp] theorem allRawFree_append :
    AllRawFree (nodes ++ more) ↔ AllRawFree nodes ∧ AllRawFree more := by
  simp only [allRawFree_iff_allPieces, allPieces_append]

@[simp] theorem allRawFree_flatMap {α : Type} {items : List α} {f : α → List Html} :
    AllRawFree (items.flatMap f) ↔ ∀ item ∈ items, AllRawFree (f item) := by
  simp only [allRawFree_iff_allPieces, allPieces_flatMap]

end

end Html

open Html

def HtmlFree (nodes : List TreeNode) : Prop := ∀ node ∈ nodes, ¬node.IsRawHtml

/-- A layout makes no raw pieces by itself. -/
theorem Layout.rawFree_rules (ctx : LayoutContext) :
    Layout.Rules ctx (fun node => ¬node.IsRawHtml) fun piece => ¬piece.IsRaw where
  text _ := not_false
  void _ _ := not_false
  element _ _ _ := not_false
  anchor _ _ := not_false
  link _ _ := not_false
  crossRef _ _ _ := not_false
  noRaw _ h := h trivial
  notRaw h := h

/-- A tree without raw nodes of the target language has a body without raw pieces. -/
theorem Document.body_rawFree (site : SiteContext) {a : Artifact}
    (h : HtmlFree (blockNodes a.blocks)) : AllRawFree (body site a).1 :=
  (allRawFree_iff_allPieces _).2 (body_all (Layout.rawFree_rules _) h)

end TexCatalog
