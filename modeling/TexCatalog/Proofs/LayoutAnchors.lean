import TexCatalog.Page.Document
import TexCatalog.Proofs.LayoutRules
import TexCatalog.Proofs.TreeNodes

/-!
# Anchors on a page

Every anchor of a tree is the identifier of an element on its page, be it in the text or in a note.
-/

namespace TexCatalog

namespace Html

def attributeIds (attrs : List Attribute) : List Text :=
  (attrs.filter (·.name = ("id" : Text))).map (·.value)

mutual

def ids : Html → List Text
  | .text _ | .raw _ => []
  | .element _ attrs content => attributeIds attrs ++ allIds content
  | .void _ attrs => attributeIds attrs

def allIds : List Html → List Text
  | [] => []
  | node :: more => node.ids ++ allIds more

end

@[simp] theorem allIds_append (a b : List Html) : allIds (a ++ b) = allIds a ++ allIds b := by
  induction a with
  | nil => simp [allIds]
  | cons node more ih => simp [allIds, ih]

@[simp] theorem attributeIds_nil : attributeIds [] = [] := rfl

@[simp] theorem ids_newline : newline.ids = [] := by simp [newline, ids]

@[simp] theorem allIds_trimText {make : Text → Html} (h : ∀ t, (make t).ids = []) (t : Text) :
    allIds (trimText make t) = [] := by
  unfold trimText
  split <;> simp [allIds, h]

/-- Only texts are trimmed. -/
@[simp] theorem allIds_trimEnd (nodes : List Html) : allIds (trimEnd nodes) = allIds nodes := by
  induction nodes with
  | nil => rfl
  | cons node more ih =>
    unfold trimEnd
    split
    · next hmore =>
      rw [hmore] at ih
      split
      · rw [allIds_trimText (fun _ => by simp [ids])]
        simp [allIds, ids, ← ih]
      · rw [allIds_trimText (fun _ => by simp [ids])]
        simp [allIds, ids, ← ih]
      · simp [allIds, ← ih]
    · simp [allIds, ih]

end Html

open Html

theorem mem_attributeIds_toAttributes {attr : Attr} (h : attr.id ≠ []) :
    attr.id ∈ attributeIds attr.toAttributes := by
  simp [attributeIds, Attr.toAttributes, h]

/-- A span stands for an icon if the layout finds one. -/
theorem Layout.icon?_eq_none {attr : Attr} : Layout.icon? attr = none ↔ attr.isIcon = false := by
  unfold Layout.icon? Attr.isIcon
  split <;> simp_all

theorem Layout.isIcon_of_icon? {attr : Attr} {icon : Text} (h : Layout.icon? attr = some icon) :
    attr.isIcon = true := by
  rw [← Bool.not_eq_false, ← Layout.icon?_eq_none, h]
  exact Option.some_ne_none icon

def carriedIds (markup : List Html) (notes : List (List Html)) : List Text :=
  allIds markup ++ notes.flatMap allIds

theorem mem_carriedIds {markup : List Html} {notes : List (List Html)} {id : Text} :
    id ∈ carriedIds markup notes ↔ id ∈ allIds markup ∨ ∃ note ∈ notes, id ∈ allIds note := by
  simp [carriedIds]

def Carries (nodes : List TreeNode) (markup : List Html) (notes : List (List Html)) : Prop :=
  ∀ id ∈ anchors nodes, id ∈ carriedIds markup notes

section

variable {nodes more : List TreeNode} {markup rest : List Html} {notes later : List (List Html)}

theorem carries_nil : Carries [] markup notes := by simp [Carries]

theorem Carries.append (ha : Carries nodes markup notes) (hb : Carries more rest later) :
    Carries (nodes ++ more) (markup ++ rest) (notes ++ later) := by
  intro id hid
  rw [anchors_append, List.mem_append] at hid
  have hleft := ha id
  have hright := hb id
  simp only [mem_carriedIds, allIds_append, List.mem_append] at hleft hright ⊢
  grind

/-- Markup around the markup of the content carries what that carries. -/
theorem Carries.within {outer : List Html} (h : Carries nodes markup notes)
    (houter : ∀ id ∈ allIds markup, id ∈ allIds outer) : Carries nodes outer notes := by
  intro id hid
  have hcontent := h id hid
  rw [mem_carriedIds] at hcontent ⊢
  exact hcontent.imp_left (houter id)

theorem Carries.cons {node : TreeNode} (h : Carries nodes markup notes)
    (hnode : node.anchor ≠ [] → node.anchor ∈ allIds markup) :
    Carries (node :: nodes) markup notes := by
  intro id hid
  rw [← List.singleton_append, anchors_append, List.mem_append] at hid
  rcases hid with hid | hid
  · simp only [mem_anchors, List.mem_singleton, exists_eq_left] at hid
    obtain ⟨hne, rfl⟩ := hid
    exact mem_carriedIds.2 (.inl (hnode hne))
  · exact h id hid

end

namespace Layout

variable (ctx : LayoutContext)

/-- A node without an anchor that shows nothing else. -/
theorem carries_bare {x : Layout (List Html)} {node : TreeNode} (h : node.anchor = []) :
    x.Ensures (Carries [node]) := fun _ => carries_nil.cons fun hne => absurd h hne

/-- An element with an identifier around the markup of a node's content. -/
theorem carries_element {x : Layout (List Html)} {node : TreeNode} {inner : List TreeNode}
    {make : List Html → List Html} (hx : x.Ensures (Carries inner))
    (hinner : ∀ content, ∀ id ∈ allIds content, id ∈ allIds (make content))
    (hnode : ∀ content, node.anchor ≠ [] → node.anchor ∈ allIds (make content)) :
    Ensures (x >>= fun content => Pure.pure (make content)) (Carries (node :: inner)) :=
  ensures_bind_pure hx fun content _ h => (h.within (hinner content)).cons (hnode content)

section

variable {nodes rest : List TreeNode} {block : Block} {more : List Block}

theorem layoutDetails_carries_cons (hblock : (layoutBlock ctx block).Ensures (Carries nodes))
    (hmore : (layoutBlocks ctx more).Ensures (Carries rest)) :
    (layoutDetails ctx (block :: more)).Ensures (Carries (nodes ++ rest)) := by
  refine ensures_layoutDetails hblock hmore (fun summary notes markup later h hmarkup => ?_)
    fun markup notes tail later h htail => ?_
  · refine (h.append hmarkup).within fun id hid => ?_
    simpa [allIds, ids] using hid
  · refine (h.append htail).within fun id hid => ?_
    simpa [allIds, ids] using hid

theorem layoutItem_carries_cons (hblock : (layoutBlock ctx block).Ensures (Carries nodes))
    (hmore : (layoutBlocks ctx more).Ensures (Carries rest)) :
    (layoutItem ctx (block :: more)).Ensures (Carries (nodes ++ rest)) := by
  refine ensures_layoutItem hblock hmore (fun markup notes halone h => ?_)
    (fun markup notes halone h => ?_) fun markup notes tail later h htail => h.append htail
  · have hall := h.append halone
    rw [List.append_nil, List.append_nil] at hall
    refine hall.within fun id hid => ?_
    simpa [allIds, ids] using hid
  · have hall := h.append halone
    rw [List.append_nil, List.append_nil] at hall
    refine hall.within fun id hid => ?_
    simpa [allIds] using hid

end

mutual

theorem layoutInline_carries :
    ∀ node : Inline, (layoutInline ctx node).Ensures (Carries (.inline node :: node.shownInner))
  | .styled style content => by
    rw [layoutInline, Inline.shownInner]
    refine carries_element (layoutInlines_carries content) (fun content id hid => ?_)
      fun _ hne => absurd rfl hne
    cases style <;> simp [openStyle, allIds, ids, hid]
  | .quoted kind content => by
    rw [layoutInline, Inline.shownInner]
    refine carries_element (layoutInlines_carries content) (fun content id hid => ?_)
      fun _ hne => absurd rfl hne
    simpa [allIds, ids] using hid
  | .link attr content target => by
    rw [layoutInline, Inline.shownInner]
    refine carries_element (layoutInlines_carries content) (fun content id hid => ?_)
      fun _ hne => absurd rfl hne
    simp [allIds, ids, hid]
  | .span attr content => by
    rw [layoutInline, Inline.shownInner]
    split
    · next icon hicon =>
      have hisIcon := isIcon_of_icon? hicon
      apply ensures_pure
      rw [if_pos hisIcon]
      refine carries_nil.cons fun hne => ?_
      simp [TreeNode.anchor, hisIcon] at hne
    · next hicon =>
      rw [icon?_eq_none] at hicon
      rw [hicon, if_neg Bool.false_ne_true]
      refine carries_element (layoutInlines_carries content) (fun content id hid => ?_)
        fun content hne => ?_
      · simp [allIds, ids, hid]
      · simp only [TreeNode.anchor, hicon] at hne ⊢
        simp [allIds, ids, mem_attributeIds_toAttributes hne]
  | .crossRef attr content label => by
    rw [layoutInline, Inline.shownInner]
    refine ensures_bind (P := fun _ notes => notes = []) ?_ fun href notes hnotes => ?_
    · unfold layoutTarget
      split
      · exact ensures_pure rfl
      · exact ensures_bind_pure (ensures_report rfl) fun _ _ h => h
    · subst hnotes
      refine ensures_bind_pure (layoutInlines_carries content) fun shown notes h => ?_
      refine Carries.cons ?_ fun hne => absurd rfl hne
      by_cases hempty : content.isEmpty
      · rw [List.isEmpty_iff] at hempty
        subst hempty
        exact carries_nil
      · refine h.within fun id hid => ?_
        simp [hempty, allIds, ids, hid]
  | .note content => by
    rw [layoutInline, Inline.shownInner]
    refine ensures_bind_pure (ensures_collect (layoutBlocks_carries content)) fun n notes h => ?_
    obtain ⟨markup, inner, h, rfl⟩ := h
    refine Carries.cons (fun id hid => ?_) fun hne => absurd rfl hne
    have hinner := h id hid
    simp only [mem_carriedIds, List.mem_append, List.mem_singleton] at hinner ⊢
    grind
  | .text _ | .code .. | .space | .softBreak | .lineBreak | .math .. | .raw .. | .image .. => by
    rw [Inline.shownInner]
    exact carries_bare rfl

theorem layoutInlines_carries :
    ∀ nodes : List Inline, (layoutInlines ctx nodes).Ensures (Carries (shownInlines nodes))
  | [] => by
    rw [layoutInlines, shownInlines]
    exact ensures_pure carries_nil
  | node :: more => by
    rw [layoutInlines, shownInlines]
    refine ensures_bind (layoutInline_carries node) fun markup notes h => ?_
    exact ensures_bind_pure (layoutInlines_carries more) fun rest later hmore => h.append hmore

theorem layoutBlocks_carries :
    ∀ blocks : List Block, (layoutBlocks ctx blocks).Ensures (Carries (shownBlocks blocks))
  | [] => by
    rw [layoutBlocks, shownBlocks]
    exact ensures_pure carries_nil
  | block :: more => by
    rw [layoutBlocks, shownBlocks]
    refine ensures_bind (layoutBlock_carries block) fun markup notes h => ?_
    exact ensures_bind_pure (layoutBlocks_carries more) fun rest later hmore => h.append hmore

theorem layoutBlock_carries :
    ∀ block : Block, (layoutBlock ctx block).Ensures (Carries (.block block :: block.shownInner))
  | .plain content => by
    rw [layoutBlock, Block.shownInner]
    refine carries_element (layoutInlines_carries content) (fun content id hid => ?_)
      fun _ hne => absurd rfl hne
    simp [hid]
  | .para content => by
    rw [layoutBlock, Block.shownInner]
    refine carries_element (layoutInlines_carries content) (fun content id hid => ?_)
      fun _ hne => absurd rfl hne
    simp [allIds, ids, hid]
  | .header level attr content => by
    rw [layoutBlock, Block.shownInner]
    refine carries_element (layoutInlines_carries content) (fun content id hid => ?_)
      fun content hne => ?_
    · simp [allIds, ids, hid]
    · simp [allIds, ids, TreeNode.anchor, mem_attributeIds_toAttributes hne]
  | .quote content => by
    rw [layoutBlock, Block.shownInner]
    refine carries_element (layoutBlocks_carries content) (fun content id hid => ?_)
      fun _ hne => absurd rfl hne
    simp [allIds, ids, hid]
  | .bullets items => by
    rw [layoutBlock, Block.shownInner]
    refine carries_element (layoutItems_carries items) (fun content id hid => ?_)
      fun _ hne => absurd rfl hne
    simp [allIds, ids, hid]
  | .numbered numbering items => by
    rw [layoutBlock, Block.shownInner]
    refine carries_element (layoutItems_carries items) (fun content id hid => ?_)
      fun _ hne => absurd rfl hne
    simp [allIds, ids, hid]
  | .div attr content => by
    rw [layoutBlock, Block.shownInner]
    by_cases hspecial : attr.isSpecial = true
    · rw [if_pos hspecial]
      exact carries_bare (if_pos hspecial)
    · have hclass : ¬attr.hasClass "special-block" = true := hspecial
      have hanchor : (TreeNode.block (.div attr content)).anchor = attr.id := if_neg hspecial
      have hid (tag : Tag) (markup : List Html) (hne : attr.id ≠ []) :
          attr.id ∈ allIds [.element tag attr.toAttributes markup, newline] := by
        simp [allIds, ids, mem_attributeIds_toAttributes hne]
      rw [if_neg hspecial, if_neg hclass]
      split
      · refine carries_element (layoutDetails_carries content) (fun content id hid => ?_)
          fun markup hne => ?_
        · simp [allIds, ids, hid]
        · rw [hanchor] at hne ⊢
          exact hid .details _ hne
      · refine ensures_bind_pure (layoutBlocks_carries content) fun markup notes h => ?_
        refine Carries.cons ?_ fun hne => ?_
        · by_cases hempty : content.isEmpty
          · rw [List.isEmpty_iff] at hempty
            subst hempty
            exact carries_nil
          · refine h.within fun id hid => ?_
            simp [hempty, allIds, ids, hid]
        · rw [hanchor] at hne ⊢
          exact hid _ _ hne
  | .code .. | .raw .. | .rule => by
    rw [Block.shownInner]
    exact carries_bare rfl

theorem layoutDetails_carries :
    ∀ blocks : List Block, (layoutDetails ctx blocks).Ensures (Carries (shownBlocks blocks))
  | [] => by
    rw [layoutDetails, shownBlocks]
    exact ensures_pure carries_nil
  | block :: more => by
    rw [shownBlocks]
    exact layoutDetails_carries_cons ctx (layoutBlock_carries block) (layoutBlocks_carries more)

theorem layoutItem_carries :
    ∀ item : List Block, (layoutItem ctx item).Ensures (Carries (shownBlocks item))
  | [] => by
    rw [layoutItem, shownBlocks]
    exact ensures_pure carries_nil
  | block :: more => by
    rw [shownBlocks]
    exact layoutItem_carries_cons ctx (layoutBlock_carries block) (layoutBlocks_carries more)

theorem layoutItems_carries :
    ∀ items : List (List Block), (layoutItems ctx items).Ensures (Carries (shownItems items))
  | [] => by
    rw [layoutItems, shownItems]
    exact ensures_pure carries_nil
  | item :: more => by
    rw [layoutItems, shownItems]
    refine ensures_bind (layoutItem_carries item) fun markup notes h => ?_
    refine ensures_bind_pure (layoutItems_carries more) fun rest later hmore => ?_
    refine (h.append hmore).within fun id hid => ?_
    simpa [allIds, ids] using hid

end

end Layout

/-- Notes at the end of a page keep the identifiers in them. -/
theorem mem_allIds_noteItems {id : Text} {note : List Html} (h : id ∈ allIds note) :
    ∀ (n : Nat) (notes : List (List Html)), note ∈ notes → id ∈ allIds (Layout.noteItems n notes)
  | n, content :: more, hnote => by
    rw [Layout.noteItems, allIds_append, List.mem_append]
    rcases List.mem_cons.1 hnote with rfl | hnote
    · left
      simp [Layout.noteItem, allIds, ids, h]
    · exact .inr (mem_allIds_noteItems h (n + 1) more hnote)

/-- Every anchor of a tree is the identifier of an element of its page, whatever the site. -/
theorem Document.anchors_subset_body (site : SiteContext) (a : Artifact) :
    ∀ id ∈ anchors (shownBlocks a.blocks), id ∈ allIds (body site a).1 := by
  intro id hid
  have hcarried := Layout.layoutBlocks_carries
    ⟨a.record.stem, site.labels, site.records, site.math⟩ a.blocks 0 id hid
  unfold body
  simp only [allIds_append, List.mem_append]
  rcases mem_carriedIds.1 hcarried with hmarkup | ⟨note, hnote, hin⟩
  · exact .inl hmarkup
  · right
    have hitems := mem_allIds_noteItems hin 1 _ hnote
    have hsome : ¬(Layout.layoutBlocks ⟨a.record.stem, site.labels, site.records, site.math⟩
        a.blocks 0).2.notes.isEmpty = true := by
      rw [List.isEmpty_iff]
      exact List.ne_nil_of_mem hnote
    rw [Layout.noteSection, if_neg hsome]
    simp [allIds, ids, hitems]

end TexCatalog
