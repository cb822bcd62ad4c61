import TexCatalog.Tree.Basic

/-!
# The nodes of a tree

All nodes that stand in a tree, at any depth and in the order of the text, and those among them that
a page shows. The alternative text of an image is no part of a page, and neither is what stands in
an icon or in a block that is filled in from the data of the site.
-/

namespace TexCatalog

inductive TreeNode where
  | inline (node : Inline)
  | block (node : Block)

mutual

def Inline.inner : Inline → List TreeNode
  | .styled _ content => inlineNodes content
  | .quoted _ content => inlineNodes content
  | .link _ content _ => inlineNodes content
  | .image _ content _ => inlineNodes content
  | .span _ content => inlineNodes content
  | .crossRef _ content _ => inlineNodes content
  | .note content => blockNodes content
  | .text _ | .code .. | .space | .softBreak | .lineBreak | .math .. | .raw .. => []

/-- The nodes of running text, each in front of the nodes below it. -/
def inlineNodes : List Inline → List TreeNode
  | [] => []
  | node :: more => .inline node :: node.inner ++ inlineNodes more

def Block.inner : Block → List TreeNode
  | .plain content => inlineNodes content
  | .para content => inlineNodes content
  | .header _ _ content => inlineNodes content
  | .quote content => blockNodes content
  | .div _ content => blockNodes content
  | .bullets items => itemNodes items
  | .numbered _ items => itemNodes items
  | .code .. | .raw .. | .rule => []

/-- The nodes of blocks, each in front of the nodes below it. -/
def blockNodes : List Block → List TreeNode
  | [] => []
  | block :: more => .block block :: block.inner ++ blockNodes more

def itemNodes : List (List Block) → List TreeNode
  | [] => []
  | item :: more => blockNodes item ++ itemNodes more

end

namespace Attr

def isIcon (attr : Attr) : Bool := attr.hasClass "icon" && (attr.get? "data-icon").isSome

def isSpecial (attr : Attr) : Bool := attr.hasClass "special-block"

end Attr

mutual

def Inline.shownInner : Inline → List TreeNode
  | .styled _ content => shownInlines content
  | .quoted _ content => shownInlines content
  | .link _ content _ => shownInlines content
  | .span attr content => if attr.isIcon then [] else shownInlines content
  | .crossRef _ content _ => shownInlines content
  | .note content => shownBlocks content
  | .image .. | .text _ | .code .. | .space | .softBreak | .lineBreak | .math .. | .raw .. => []

def shownInlines : List Inline → List TreeNode
  | [] => []
  | node :: more => .inline node :: node.shownInner ++ shownInlines more

def Block.shownInner : Block → List TreeNode
  | .plain content => shownInlines content
  | .para content => shownInlines content
  | .header _ _ content => shownInlines content
  | .quote content => shownBlocks content
  | .div attr content => if attr.isSpecial then [] else shownBlocks content
  | .bullets items => shownItems items
  | .numbered _ items => shownItems items
  | .code .. | .raw .. | .rule => []

def shownBlocks : List Block → List TreeNode
  | [] => []
  | block :: more => .block block :: block.shownInner ++ shownBlocks more

def shownItems : List (List Block) → List TreeNode
  | [] => []
  | item :: more => shownBlocks item ++ shownItems more

end

namespace TreeNode

def identifier : TreeNode → Text
  | .block (.header _ attr _) => attr.id
  | .block (.div attr _) => attr.id
  | .inline (.span attr _) => attr.id
  | _ => []

def anchor : TreeNode → Text
  | .block (.header _ attr _) => attr.id
  | .block (.div attr _) => if attr.isSpecial then [] else attr.id
  | .inline (.span attr _) => if attr.isIcon then [] else attr.id
  | _ => []

def tex? : TreeNode → Option Text
  | .inline (.raw format text) => if format.isTex then some text else none
  | .block (.raw format text) => if format.isTex then some text else none
  | _ => none

end TreeNode

@[simp] theorem Format.isTex_tex : Format.tex.isTex = true := by simp [Format.isTex, Format.tex]

@[simp] theorem Format.isTex_table : Format.table.isTex = false := by
  simp [Format.isTex, Format.table]

def TexAll (p : Text → Prop) (nodes : List TreeNode) : Prop :=
  ∀ node ∈ nodes, ∀ text ∈ node.tex?, p text

def anchors (nodes : List TreeNode) : List Text := (nodes.map TreeNode.anchor).filter (· ≠ [])

section

variable {nodes more : List TreeNode}

@[simp] theorem anchors_nil : anchors [] = [] := rfl

@[simp] theorem anchors_append : anchors (nodes ++ more) = anchors nodes ++ anchors more := by
  simp [anchors]

theorem mem_anchors {id : Text} :
    id ∈ anchors nodes ↔ id ≠ [] ∧ ∃ node ∈ nodes, node.anchor = id := by
  simp only [anchors, List.mem_filter, List.mem_map, decide_eq_true_eq]
  exact and_comm

end

section

variable {p q : Text → Prop} {node : TreeNode} {nodes more : List TreeNode}

@[simp] theorem texAll_nil : TexAll p [] := by simp [TexAll]

@[simp] theorem texAll_cons :
    TexAll p (node :: nodes) ↔ (∀ text ∈ node.tex?, p text) ∧ TexAll p nodes := by simp [TexAll]

@[simp] theorem texAll_append : TexAll p (nodes ++ more) ↔ TexAll p nodes ∧ TexAll p more := by
  simp only [TexAll, List.mem_append, or_imp, forall_and]

theorem TexAll.mono (h : TexAll p nodes) (hpq : ∀ text, p text → q text) : TexAll q nodes :=
  fun node hnode text htext => hpq text (h node hnode text htext)

end

@[simp] theorem inlineNodes_append (a b : List Inline) :
    inlineNodes (a ++ b) = inlineNodes a ++ inlineNodes b := by
  induction a with
  | nil => simp [inlineNodes]
  | cons node more ih => simp [inlineNodes, ih]

theorem forall_mem_inlineNodes {P : TreeNode → Prop} {nodes : List Inline} :
    (∀ n ∈ inlineNodes nodes, P n) ↔ ∀ node ∈ nodes, ∀ n ∈ .inline node :: node.inner, P n := by
  induction nodes with
  | nil => simp [inlineNodes]
  | cons node more ih => simp only [inlineNodes, List.forall_mem_append, List.forall_mem_cons, ih]

/-- What stands in a row with separators is one of them or stood in the row. -/
theorem mem_intersperse {α : Type} {sep a : α} {l : List α} (h : a ∈ l.intersperse sep) :
    a = sep ∨ a ∈ l := by
  induction l with
  | nil => exact .inr h
  | cons b more ih =>
    cases more with
    | nil => exact .inr h
    | cons c more =>
      rw [List.intersperse_cons_cons, List.mem_cons, List.mem_cons] at h
      rcases h with rfl | rfl | h
      · exact .inr (List.mem_cons_self ..)
      · exact .inl rfl
      · exact (ih h).imp_right (List.mem_cons_of_mem _)

@[simp] theorem blockNodes_append (a b : List Block) :
    blockNodes (a ++ b) = blockNodes a ++ blockNodes b := by
  induction a with
  | nil => simp [blockNodes]
  | cons block more ih => simp [blockNodes, ih]

@[simp] theorem shownInlines_append (a b : List Inline) :
    shownInlines (a ++ b) = shownInlines a ++ shownInlines b := by
  induction a with
  | nil => simp [shownInlines]
  | cons node more ih => simp [shownInlines, ih]

@[simp] theorem shownBlocks_append (a b : List Block) :
    shownBlocks (a ++ b) = shownBlocks a ++ shownBlocks b := by
  induction a with
  | nil => simp [shownBlocks]
  | cons block more ih => simp [shownBlocks, ih]

mutual

theorem Inline.shownInner_sublist : ∀ node : Inline, node.shownInner.Sublist node.inner
  | .styled _ content | .quoted _ content | .link _ content _ | .crossRef _ content _ => by
    rw [Inline.shownInner, Inline.inner]
    exact shownInlines_sublist content
  | .span attr content => by
    rw [Inline.shownInner, Inline.inner]
    split
    · exact List.nil_sublist _
    · exact shownInlines_sublist content
  | .note content => by
    rw [Inline.shownInner, Inline.inner]
    exact shownBlocks_sublist content
  | .image .. | .text _ | .code .. | .space | .softBreak | .lineBreak | .math .. | .raw .. => by
    rw [Inline.shownInner]
    exact List.nil_sublist _

theorem shownInlines_sublist : ∀ nodes : List Inline,
    (shownInlines nodes).Sublist (inlineNodes nodes)
  | [] => by
    rw [shownInlines]
    exact List.nil_sublist _
  | node :: more => by
    rw [shownInlines, inlineNodes]
    exact .append (.cons_cons _ (Inline.shownInner_sublist node)) (shownInlines_sublist more)

theorem Block.shownInner_sublist : ∀ block : Block, block.shownInner.Sublist block.inner
  | .plain content | .para content | .header _ _ content => by
    rw [Block.shownInner, Block.inner]
    exact shownInlines_sublist content
  | .quote content => by
    rw [Block.shownInner, Block.inner]
    exact shownBlocks_sublist content
  | .div attr content => by
    rw [Block.shownInner, Block.inner]
    split
    · exact List.nil_sublist _
    · exact shownBlocks_sublist content
  | .bullets items | .numbered _ items => by
    rw [Block.shownInner, Block.inner]
    exact shownItems_sublist items
  | .code .. | .raw .. | .rule => by
    rw [Block.shownInner]
    exact List.nil_sublist _

theorem shownBlocks_sublist : ∀ blocks : List Block,
    (shownBlocks blocks).Sublist (blockNodes blocks)
  | [] => by
    rw [shownBlocks]
    exact List.nil_sublist _
  | block :: more => by
    rw [shownBlocks, blockNodes]
    exact .append (.cons_cons _ (Block.shownInner_sublist block)) (shownBlocks_sublist more)

theorem shownItems_sublist : ∀ items : List (List Block),
    (shownItems items).Sublist (itemNodes items)
  | [] => by
    rw [shownItems]
    exact List.nil_sublist _
  | item :: more => by
    rw [shownItems, itemNodes]
    exact .append (shownBlocks_sublist item) (shownItems_sublist more)

end

/-- An anchor is the identifier of its node. -/
theorem TreeNode.identifier_of_anchor {node : TreeNode} (h : node.anchor ≠ []) :
    node.identifier = node.anchor := by
  unfold anchor at h ⊢
  unfold identifier
  split at h
  · rfl
  · split at h
    · exact absurd rfl h
    · next hspecial => rw [if_neg hspecial]
  · split at h
    · exact absurd rfl h
    · next hicon => rw [if_neg hicon]
  · exact absurd rfl h

end TexCatalog
