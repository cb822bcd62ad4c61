import TexCatalog.Proofs.QuietCards
import TexCatalog.Proofs.SourceWalk

/-!
# Labels with an anchor

With quiet topic cards no label is lost: whatever label is found on the way to a tree is the
identifier of a node that a page shows. The forms are followed one by one.
-/

namespace TexCatalog

open Findings Walk

@[simp] theorem mem_labels_labelFindings {attr : Attr} {l : Text} :
    l ∈ (labelFindings attr).labels ↔ l = attr.id ∧ l ≠ [] := by
  unfold labelFindings
  split
  · next hid => simp [hid]
  · next hid =>
    refine TextSet.mem_singleton.trans ⟨fun h => ?_, fun h => h.1⟩
    exact ⟨h, h ▸ hid⟩

@[simp] theorem not_mem_labels_linkFindings {target : Target} {content : List Inline} {l : Text} :
    l ∉ (linkFindings target content).labels := TextSet.not_mem_empty l

@[simp] theorem not_mem_labels_citationFindings {attr : Attr} {l : Text} :
    l ∉ (citationFindings attr).labels := by
  unfold citationFindings
  split <;> exact TextSet.not_mem_empty l

@[simp] theorem mem_anchors_cons {node : TreeNode} {nodes : List TreeNode} {l : Text} :
    l ∈ anchors (node :: nodes) ↔ l = node.anchor ∧ l ≠ [] ∨ l ∈ anchors nodes := by
  simp only [mem_anchors, List.mem_cons, exists_eq_or_imp]
  grind

@[simp] theorem observeInlines_append_labels {a b : List Inline} {l : Text} :
    l ∈ (observeInlines (a ++ b)).labels ↔
      l ∈ (observeInlines a).labels ∨ l ∈ (observeInlines b).labels := by
  induction a with
  | nil => simp [observeInlines]
  | cons node more ih => simp [observeInlines, ih, or_assoc]

@[simp] theorem observeBlocks_append_labels {a b : List Block} {l : Text} :
    l ∈ (observeBlocks (a ++ b)).labels ↔
      l ∈ (observeBlocks a).labels ∨ l ∈ (observeBlocks b).labels := by
  induction a with
  | nil => simp [observeBlocks]
  | cons block more ih => simp [observeBlocks, ih, or_assoc]

def Unlabelled (n : Notes) : Prop := ∀ l, l ∉ n.findings.labels

theorem unlabelled_empty : Unlabelled {} := fun _ => not_mem_labels_empty

theorem Unlabelled.combine {m n : Notes} (hm : Unlabelled m) (hn : Unlabelled n) :
    Unlabelled (m.combine n) := fun l hl => (mem_labels_combine.1 hl).elim (hm l) (hn l)

def InlinesKept (nodes : List Inline) (n : Notes) : Prop :=
  ∀ l, l ∈ n.findings.labels ∨ l ∈ (observeInlines nodes).labels → l ∈ anchors (shownInlines nodes)

def BlocksKept (blocks : List Block) (n : Notes) : Prop :=
  ∀ l, l ∈ n.findings.labels ∨ l ∈ (observeBlocks blocks).labels → l ∈ anchors (shownBlocks blocks)

def ItemsKept (items : List (List Block)) (n : Notes) : Prop :=
  ∀ l, l ∈ n.findings.labels ∨ l ∈ (observeItems items).labels → l ∈ anchors (shownItems items)

section

variable {m n : Notes} {content nodes more : List Inline} {blocks rest : List Block} {attr : Attr}

theorem InlinesKept.append (ha : InlinesKept nodes m) (hb : InlinesKept more n) :
    InlinesKept (nodes ++ more) (m.combine n) := by
  intro l hl
  have hal := ha l
  have hbl := hb l
  simp only [Notes.combine_findings, mem_labels_combine, observeInlines_append_labels] at hl
  rw [shownInlines_append, anchors_append, List.mem_append]
  tauto

theorem BlocksKept.append (ha : BlocksKept blocks m) (hb : BlocksKept rest n) :
    BlocksKept (blocks ++ rest) (m.combine n) := by
  intro l hl
  have hal := ha l
  have hbl := hb l
  simp only [Notes.combine_findings, mem_labels_combine, observeBlocks_append_labels] at hl
  rw [shownBlocks_append, anchors_append, List.mem_append]
  tauto

theorem ItemsKept.cons {items : List (List Block)} (ha : BlocksKept blocks m)
    (hb : ItemsKept items n) : ItemsKept (blocks :: items) (m.combine n) := by
  intro l hl
  have hal := ha l
  have hbl := hb l
  simp only [Notes.combine_findings, mem_labels_combine, observeItems] at hl
  rw [shownItems, anchors_append, List.mem_append]
  tauto

theorem inlinesKept_of_not_mem (hn : Unlabelled n)
    (hnodes : ∀ l, l ∉ (observeInlines nodes).labels) : InlinesKept nodes n := by
  intro l hl
  exact absurd hl (not_or.2 ⟨hn l, hnodes l⟩)

theorem inlinesKept_text (t : Text) : InlinesKept [.text t] {} :=
  inlinesKept_of_not_mem unlabelled_empty (by simp [observeInlines, observeInline])

theorem blocksKept_of_not_mem (hn : Unlabelled n)
    (hblocks : ∀ l, l ∉ (observeBlocks blocks).labels) : BlocksKept blocks n := by
  intro l hl
  exact absurd hl (not_or.2 ⟨hn l, hblocks l⟩)

/-- Labels that stand in the content already may be noted once more. -/
theorem InlinesKept.noted (h : InlinesKept nodes m)
    (hn : ∀ l ∈ n.findings.labels, l ∈ m.findings.labels ∨ l ∈ (observeInlines nodes).labels) :
    InlinesKept nodes n := by
  intro l hl
  apply h l
  rcases hl with hl | hl
  · exact hn l hl
  · exact .inr hl

theorem BlocksKept.noted (h : BlocksKept blocks m)
    (hn : ∀ l ∈ n.findings.labels, l ∈ m.findings.labels ∨ l ∈ (observeBlocks blocks).labels) :
    BlocksKept blocks n := by
  intro l hl
  apply h l
  rcases hl with hl | hl
  · exact hn l hl
  · exact .inr hl

/-- A node that shows its content keeps the labels there. -/
theorem InlinesKept.node {node : Inline} (h : InlinesKept content n)
    (hobserved : ∀ l ∈ (observeInline node).labels,
      l ∈ (observeInlines content).labels ∨ l = (TreeNode.inline node).anchor ∧ l ≠ [])
    (hshown : node.shownInner = shownInlines content) : InlinesKept [node] n := by
  intro l hl
  have hcontent := h l
  have hnode := hobserved l
  simp only [observeInlines, combine_empty] at hl
  simp only [shownInlines, hshown, List.append_nil, mem_anchors_cons]
  tauto

theorem InlinesKept.span (h : InlinesKept content n) (hicon : attr.isIcon = false) :
    InlinesKept [.span attr content] n := by
  refine h.node (fun l hl => ?_) (by simp [Inline.shownInner, hicon])
  rw [observeInline, mem_labels_combine, mem_labels_labelFindings] at hl
  simp only [TreeNode.anchor, hicon]
  exact hl.symm

theorem InlinesKept.styled (style : Style) (h : InlinesKept content n) :
    InlinesKept [.styled style content] n :=
  h.node (fun l hl => .inl (by rwa [observeInline] at hl)) (by rw [Inline.shownInner])

theorem InlinesKept.quoted (kind : QuoteKind) (h : InlinesKept content n) :
    InlinesKept [.quoted kind content] n :=
  h.node (fun l hl => .inl (by rwa [observeInline] at hl)) (by rw [Inline.shownInner])

theorem InlinesKept.crossRef (attr : Attr) (label : Text) (h : InlinesKept content n) :
    InlinesKept [.crossRef attr content label] n :=
  h.node (fun l hl => .inl (by rwa [observeInline] at hl)) (by rw [Inline.shownInner])

theorem InlinesKept.link (attr : Attr) (target : Target) (h : InlinesKept content n) :
    InlinesKept [.link attr content target] n := by
  refine h.node (fun l hl => .inl ?_) (by rw [Inline.shownInner])
  simpa [observeInline] using hl

/-- A block that shows running text keeps the labels there. -/
theorem BlocksKept.ofInlines {block : Block} (h : InlinesKept content n)
    (hobserved : ∀ l ∈ (observeBlock block).labels,
      l ∈ (observeInlines content).labels ∨ l = (TreeNode.block block).anchor ∧ l ≠ [])
    (hshown : block.shownInner = shownInlines content) : BlocksKept [block] n := by
  intro l hl
  have hcontent := h l
  have hblock := hobserved l
  simp only [observeBlocks, combine_empty] at hl
  simp only [shownBlocks, hshown, List.append_nil, mem_anchors_cons]
  tauto

theorem InlinesKept.para (h : InlinesKept content n) : BlocksKept [.para content] n :=
  .ofInlines h (fun l hl => .inl (by rwa [observeBlock] at hl)) (by rw [Block.shownInner])

theorem InlinesKept.header (level : UInt8) (attr : Attr) (h : InlinesKept content n) :
    BlocksKept [.header level attr content] n := by
  refine .ofInlines h (fun l hl => ?_) (by rw [Block.shownInner])
  rw [observeBlock, mem_labels_combine, mem_labels_labelFindings] at hl
  exact hl.symm

/-- A block that shows blocks keeps the labels there. -/
theorem BlocksKept.node {block : Block} (h : BlocksKept blocks n)
    (hobserved : ∀ l ∈ (observeBlock block).labels,
      l ∈ (observeBlocks blocks).labels ∨ l = (TreeNode.block block).anchor ∧ l ≠ [])
    (hshown : block.shownInner = shownBlocks blocks) : BlocksKept [block] n := by
  intro l hl
  have hcontent := h l
  have hblock := hobserved l
  simp only [observeBlocks, combine_empty] at hl
  simp only [shownBlocks, hshown, List.append_nil, mem_anchors_cons]
  tauto

theorem BlocksKept.quote (h : BlocksKept blocks n) : BlocksKept [.quote blocks] n :=
  h.node (fun l hl => .inl (by rwa [observeBlock] at hl)) (by rw [Block.shownInner])

theorem BlocksKept.div (h : BlocksKept blocks n) (hspecial : attr.isSpecial = false) :
    BlocksKept [.div attr blocks] n := by
  refine h.node (fun l hl => ?_) (by simp [Block.shownInner, hspecial])
  rw [observeBlock, mem_labels_combine, mem_labels_labelFindings] at hl
  simp only [TreeNode.anchor, hspecial]
  exact hl.symm

/-- A list shows its items, whatever stands in front of them. -/
theorem ItemsKept.node {items : List (List Block)} {block : Block} (h : ItemsKept items n)
    (hobserved : observeBlock block = observeItems items)
    (hshown : block.shownInner = shownItems items) : BlocksKept [block] n := by
  intro l hl
  have hitems := h l
  simp only [observeBlocks, combine_empty, hobserved] at hl
  simp only [shownBlocks, hshown, List.append_nil, mem_anchors_cons]
  tauto

theorem ItemsKept.bullets {items : List (List Block)} (h : ItemsKept items n) :
    BlocksKept [.bullets items] n := h.node (by rw [observeBlock]) (by rw [Block.shownInner])

theorem ItemsKept.numbered {items : List (List Block)} (numbering : Numbering)
    (h : ItemsKept items n) : BlocksKept [.numbered numbering items] n :=
  h.node (by rw [observeBlock]) (by rw [Block.shownInner])

end

/-- Spans that have classes only are no icons. -/
@[simp] theorem Attr.isIcon_ofClasses (classes : List Text) :
    (ofClasses classes).isIcon = false := by
  simp [isIcon, ofClasses, get?]

theorem not_mem_labels_of_forall {l : Text} {nodes : List Inline}
    (h : ∀ node ∈ nodes, l ∉ (observeInline node).labels) : l ∉ (observeInlines nodes).labels := by
  induction nodes with
  | nil => simp [observeInlines]
  | cons node more ih =>
    rw [List.forall_mem_cons] at h
    rw [observeInlines, mem_labels_combine]
    exact not_or.2 ⟨h.1, ih h.2⟩

theorem not_mem_labels_intersperse {sep : Inline} (hsep : ∀ l, l ∉ (observeInline sep).labels)
    {nodes : List Inline} (h : ∀ node ∈ nodes, ∀ l, l ∉ (observeInline node).labels) (l : Text) :
    l ∉ (observeInlines (nodes.intersperse sep)).labels := by
  apply not_mem_labels_of_forall
  intro node hnode
  rcases mem_intersperse hnode with rfl | hnode
  · exact hsep l
  · exact h node hnode l

structure FormContext.Keeps (c : FormContext) : Prop where
  plainText (text : Text) : (c.plainText text).Ensures fun _ n => Unlabelled n
  blocks (text : Text) : (c.blocks text).Ensures BlocksKept
  inlines (text : Text) : (c.inlines text).Ensures InlinesKept

namespace Form

section

variable {c : FormContext} (hc : c.Keeps) (inv : Invocation)

/-- A match that is declined before anything is walked. -/
theorem declines {Kind : Type} {P : List Kind → Notes → Prop} :
    Ensures (Pure.pure none) (Made P Unlabelled) := ensures_pure unlabelled_empty

/-- Nodes without labels that are made without walking anything. -/
theorem makes_inlines {nodes : List Inline} (h : ∀ l, l ∉ (observeInlines nodes).labels) :
    Ensures (Pure.pure (some nodes)) (Made InlinesKept Unlabelled) := by
  apply ensures_pure
  exact inlinesKept_of_not_mem unlabelled_empty h

theorem makes_blocks {blocks : List Block} (h : ∀ l, l ∉ (observeBlocks blocks).labels) :
    Ensures (Pure.pure (some blocks)) (Made BlocksKept Unlabelled) := by
  apply ensures_pure
  exact blocksKept_of_not_mem unlabelled_empty h

theorem icon_keeps : (icon c inv).Ensures (Made InlinesKept Unlabelled) := by
  apply makes_inlines
  simp [observeInlines, observeInline, Attr.set, Attr.ofClasses]

theorem includeImage_keeps : (includeImage c inv).Ensures (Made InlinesKept Unlabelled) := by
  unfold includeImage
  split
  · exact declines
  · apply makes_inlines
    simp [observeInlines, observeInline]

theorem oeis_keeps : (oeis c inv).Ensures (Made InlinesKept Unlabelled) := by
  apply makes_inlines
  simp [observeInlines, observeInline]

theorem reference_keeps : (reference c inv).Ensures (Made InlinesKept Unlabelled) := by
  unfold reference
  split
  · exact declines
  · apply makes_inlines
    simp [observeInlines, observeInline]

theorem label_keeps : (label c inv).Ensures (Made InlinesKept Unlabelled) := by
  unfold label
  split
  · exact declines
  · apply ensures_pure
    refine InlinesKept.span ?_ ?_
    · exact inlinesKept_of_not_mem unlabelled_empty (by simp [observeInlines])
    · simp [Attr.isIcon, Attr.hasClass, Attr.addClass, Attr.ofId]

theorem inlineSpace_keeps : (inlineSpace c inv).Ensures (Made InlinesKept Unlabelled) := by
  refine ensures_bind_pure (ensures_report (P := fun _ n => Unlabelled n) unlabelled_empty)
    fun _ n hn => ?_
  refine inlinesKept_of_not_mem hn ?_
  simp [observeInlines, observeInline, classed, Attr.ofClasses]

theorem inlineTable_keeps : (inlineTable c inv).Ensures (Made InlinesKept Unlabelled) := by
  refine ensures_bind_pure (ensures_report (P := fun _ n => Unlabelled n) unlabelled_empty)
    fun _ n hn => ?_
  refine inlinesKept_of_not_mem hn ?_
  simp [observeInlines, observeInline, classed, Attr.ofClasses]

theorem todo_keeps : (todo c inv).Ensures (Made InlinesKept Unlabelled) := by
  refine ensures_bind_pure (ensures_note (P := fun _ n => Unlabelled n) ?_) fun _ n hn => ?_
  · exact TextSet.not_mem_empty
  · exact inlinesKept_of_not_mem hn (by simp [observeInlines])

theorem blockSpace_keeps : (blockSpace c inv).Ensures (Made BlocksKept Unlabelled) := by
  apply makes_blocks
  simp [observeBlocks, observeBlock, Attr.ofClasses]

theorem styleRules_keeps : (styleRules c inv).Ensures (Made BlocksKept Unlabelled) := by
  refine ensures_bind_pure (ensures_note (P := fun _ n => Unlabelled n) ?_)
    fun _ n hn => ?_
  · exact TextSet.not_mem_empty
  · exact blocksKept_of_not_mem hn (by simp [observeBlocks])

theorem specialBlock_keeps : (specialBlock c inv).Ensures (Made BlocksKept Unlabelled) := by
  unfold specialBlock
  split
  · apply makes_blocks
    simp [observeBlocks, observeBlock, Attr.set, Attr.ofClasses]
  · exact declines

theorem polydata_keeps : (polydata c inv).Ensures (Made BlocksKept Unlabelled) := by
  unfold polydata
  split
  · exact declines
  · refine ensures_bind_pure (ensures_note (P := fun _ n => Unlabelled n) ?_)
      fun _ n hn => ?_
    · exact TextSet.not_mem_empty
    · exact blocksKept_of_not_mem hn (by simp [observeBlocks])

theorem table_keeps : (table c inv).Ensures (Made BlocksKept Unlabelled) := by
  apply makes_blocks
  simp [observeBlocks, observeBlock]

include hc

theorem defin_keeps : (defin c inv).Ensures (Made InlinesKept Unlabelled) :=
  ensures_bind_pure (hc.inlines _) fun _ _ hn => hn.span (by simp)

theorem fileLink_keeps : (fileLink c inv).Ensures (Made InlinesKept Unlabelled) :=
  ensures_bind_pure (hc.inlines _) fun _ _ hn => hn.link _ _

theorem hyperref_keeps : (hyperref c inv).Ensures (Made InlinesKept Unlabelled) := by
  unfold hyperref
  simp only
  split
  · exact declines
  · exact ensures_bind_pure (hc.inlines _) fun _ _ hn => hn.crossRef _ _

theorem enquote_keeps : (enquote c inv).Ensures (Made InlinesKept Unlabelled) :=
  ensures_bind_pure (hc.inlines _) fun _ _ hn => hn.quoted _

omit hc in
theorem citeText_keeps (key : Text) :
    (citeText c key).Ensures fun _ n => Unlabelled n := by
  unfold citeText
  split
  · exact ensures_ofExcept fun _ _ => unlabelled_empty
  · exact ensures_bind_pure (ensures_report (P := fun _ n => Unlabelled n) unlabelled_empty)
      fun _ _ hn => hn

omit hc in
/-- The links of a citation bring no labels. -/
theorem citeLinks_keeps (keys : List Text) :
    (citeLinks c keys).Ensures fun links n =>
      Unlabelled n ∧ ∀ link ∈ links, ∀ l, l ∉ (observeInline link).labels := by
  induction keys with
  | nil => exact ensures_pure ⟨unlabelled_empty, by simp⟩
  | cons key more ih =>
    refine ensures_bind (P := fun link n =>
      Unlabelled n ∧ ∀ l, l ∉ (observeInline link).labels) ?_ fun link m hm => ?_
    · refine ensures_bind (citeText_keeps key) fun text m hm => ?_
      refine ensures_bind_pure (ensures_note (P := fun _ n => Unlabelled n) ?_) fun _ n hn => ?_
      · exact fun _ => not_mem_labels_ofCitation
      · exact ⟨hm.combine hn, by simp [observeInline, observeInlines]⟩
    · refine ensures_bind_pure ih fun links n hn => ⟨hm.1.combine hn.1, ?_⟩
      simpa using ⟨hm.2, hn.2⟩

theorem citeNote_keeps (optional : Option Text) : (citeNote c optional).Ensures InlinesKept := by
  unfold citeNote
  simp only
  split
  · exact ensures_pure (inlinesKept_of_not_mem unlabelled_empty
      (by simp [observeInlines]))
  · refine ensures_bind_pure (hc.inlines _) fun content n hn => ?_
    have hall := hn.append (inlinesKept_text ", ")
    rwa [Notes.combine_empty] at hall

theorem cite_keeps : (cite c inv).Ensures (Made InlinesKept Unlabelled) := by
  unfold cite
  simp only
  split
  · exact declines
  · refine ensures_bind (citeNote_keeps hc _) fun note m hm => ?_
    refine ensures_bind_pure (citeLinks_keeps _) fun links n hn => ?_
    have hlinks : InlinesKept (links.intersperse (.text ", ")) n :=
      inlinesKept_of_not_mem hn.1 (not_mem_labels_intersperse (by simp [observeInline]) hn.2)
    have hall := (((inlinesKept_text "[").append hm).append hlinks).append (inlinesKept_text "]")
    rw [Notes.empty_combine, Notes.combine_empty, List.singleton_append] at hall
    exact hall.span (Attr.isIcon_ofClasses _)

/-- The title of a card is shown, and its description leaves nothing behind. -/
theorem quietCard_keeps : (quietCard c inv).Ensures (Made InlinesKept Unlabelled) := by
  unfold quietCard
  simp only
  split
  · exact declines
  · refine ensures_bind (hc.inlines _) fun title m hm => ?_
    refine ensures_bind_pure (ensures_silent _) fun description n hn => ?_
    subst hn
    have himage (target : Target) :
        InlinesKept [.image (.ofClasses ["topic-card-image"]) [] target] {} :=
      inlinesKept_of_not_mem unlabelled_empty (by simp [observeInlines, observeInline])
    have hshown := (himage ⟨"thumbnails/" ++ inv.arg 0 ++ ".svg", []⟩).append
      (hm.span (Attr.isIcon_ofClasses ["topic-card-title"]))
    rw [Notes.empty_combine] at hshown
    rw [Notes.combine_empty]
    exact hshown.crossRef _ _

theorem pageMeta_keeps : (pageMeta c inv).Ensures (Made BlocksKept Unlabelled) := by
  refine ensures_bind (hc.plainText _) fun value m hm => ?_
  refine ensures_bind_pure (ensures_note (P := fun _ n => Unlabelled n) ?_)
    fun _ n hn => ?_
  · split
    · exact TextSet.not_mem_empty
    · split <;> exact TextSet.not_mem_empty
  · exact blocksKept_of_not_mem (hm.combine hn) (by simp [observeBlocks])

theorem blockQuote_keeps : (blockQuote c inv).Ensures (Made BlocksKept Unlabelled) :=
  ensures_bind_pure (hc.blocks _) fun _ _ hn => hn.quote

theorem figure_keeps : (figure c inv).Ensures (Made BlocksKept Unlabelled) :=
  ensures_bind_pure (hc.blocks _) fun _ _ hn => hn.div (by cbv)

theorem topicSection_keeps : (topicSection c inv).Ensures (Made BlocksKept Unlabelled) := by
  refine ensures_bind (hc.inlines _) fun title m hm => ?_
  refine ensures_bind_pure (hc.blocks _) fun cards n hn => ?_
  exact (hm.header 2 (.ofClasses ["topic-section"])).append (hn.div (by cbv))

theorem boxTitle_keeps (optional : Option Text) : (boxTitle c optional).Ensures InlinesKept := by
  unfold boxTitle
  simp only
  split
  · exact ensures_pure (inlinesKept_of_not_mem unlabelled_empty
      (by simp [observeInlines]))
  · refine ensures_bind_pure (hc.inlines _) fun content n hn => ?_
    have hall := ((inlinesKept_text " (").append hn).append (inlinesKept_text ")")
    rwa [Notes.empty_combine, Notes.combine_empty, List.singleton_append] at hall

omit hc in
/-- No name of a box is that of the blocks that are filled in from the data of the site. -/
theorem isSpecial_box {name : Text} (h : name ∈ theoremNames) (starred : Bool) :
    (if starred then (Attr.ofClasses ["env", name]).addClass "collapsible"
      else Attr.ofClasses ["env", name]).isSpecial = false := by
  have hall : ∀ name ∈ theoremNames,
      ((Attr.ofClasses ["env", name]).addClass "collapsible").isSpecial = false ∧
        (Attr.ofClasses ["env", name]).isSpecial = false := by decide_cbv
  split
  · exact (hall name h).1
  · exact (hall name h).2

theorem theoremBox_keeps (hname : inv.name ∈ theoremNames) :
    (theoremBox c inv).Ensures (Made BlocksKept Unlabelled) := by
  refine ensures_bind (boxTitle_keeps hc _) fun title m hm => ?_
  refine ensures_bind_pure (hc.blocks _) fun content n hn => ?_
  have hheading := ((inlinesKept_text (capitalize inv.name)).styled .strong).append hm
  rw [Notes.empty_combine] at hheading
  exact (hheading.para.append hn).div (isSpecial_box hname inv.starred)

/-- The label of a family is the identifier of its heading. -/
theorem family_keeps : (family c inv).Ensures (Made BlocksKept Unlabelled) := by
  unfold family
  simp only
  split
  · exact declines
  · next hid =>
    refine ensures_bind (hc.inlines _) fun title m hm => ?_
    refine ensures_bind_pure (ensures_note (P := fun _ n =>
      ∀ l, l ∈ n.findings.labels ↔ l = Text.trim (inv.optional.getD [])) ?_) fun _ n hn => ?_
    · exact fun _ => TextSet.mem_singleton
    · refine (hm.header 2 ((Attr.ofId (Text.trim (inv.optional.getD []))).addClass "family")).noted
        fun l hl => ?_
      rw [Notes.combine_findings, mem_labels_combine, hn] at hl
      refine hl.imp_right fun hl => ?_
      subst hl
      simp [observeBlocks, observeBlock, Attr.addClass, Attr.hasClass, Attr.ofId, hid]

theorem inlineForms_keep {form : Form Inline} (h : form ∈ quietVocabulary.inlines) :
    (form.expand c inv).Ensures (Made InlinesKept Unlabelled) := by
  obtain ⟨form, hform, rfl⟩ := List.mem_map.1 h
  unfold quiet
  split
  · exact quietCard_keeps hc inv
  · next hcard =>
    simp only [inlineForms, List.mem_cons, List.not_mem_nil, or_false] at hform
    rcases hform with rfl | rfl | rfl | rfl | rfl | rfl | rfl | rfl | rfl | rfl | rfl | rfl | rfl |
      rfl
    · exact defin_keeps hc inv
    · exact icon_keeps (c := c) inv
    · exact includeImage_keeps (c := c) inv
    · exact oeis_keeps (c := c) inv
    · exact fileLink_keeps hc inv
    · exact hyperref_keeps hc inv
    · exact reference_keeps (c := c) inv
    · exact label_keeps (c := c) inv
    · exact enquote_keeps hc inv
    · exact cite_keeps hc inv
    · exact inlineSpace_keeps (c := c) inv
    · exact inlineTable_keeps (c := c) inv
    · exact absurd rfl hcard
    · exact todo_keeps (c := c) inv

theorem blockForms_keep {form : Form Block} (h : form ∈ quietVocabulary.blocks)
    (hname : inv.name ∈ form.pattern.names) :
    (form.expand c inv).Ensures (Made BlocksKept Unlabelled) := by
  change form ∈ blockForms at h
  simp only [blockForms, List.mem_cons, List.not_mem_nil, or_false] at h
  rcases h with rfl | rfl | rfl | rfl | rfl | rfl | rfl | rfl | rfl | rfl | rfl | rfl | rfl
  · exact blockSpace_keeps (c := c) inv
  · exact pageMeta_keeps hc inv
  · exact styleRules_keeps (c := c) inv
  · exact specialBlock_keeps (c := c) inv
  · exact blockQuote_keeps hc inv
  · exact theoremBox_keeps hc inv hname
  · exact family_keeps hc inv
  · exact polydata_keeps (c := c) inv
  · exact figure_keeps hc inv
  · exact topicSection_keeps hc inv
  · exact table_keeps (c := c) inv
  · exact table_keeps (c := c) inv
  · exact table_keeps (c := c) inv

end

end Form

end TexCatalog
