import Mathlib.Data.List.Flatten
import TexCatalog.Proofs.TreeLinks
import TexCatalog.Proofs.Markup
import TexCatalog.Proofs.NumberedNotes
import TexCatalog.Proofs.PageMarkup
import TexCatalog.Proofs.RecordCoverage

/-!
# Headings in the table of contents

The table of contents is collected from the tree, and the headings of a page stand in its markup.
Both go down into divisions, but only the markup goes down into quotes and lists. So the table of
contents lists the headings outside of these, and all of them exactly if none is inside.
-/

namespace TexCatalog

namespace Html

def Tag.isEnclosure : Tag → Bool
  | .blockquote | .ol | .ul => true
  | _ => false

mutual

/-- The pieces inside a piece of markup, but not those in an enclosure. -/
def openInner : Html → List Html
  | .element tag _ content => if tag.isEnclosure then [] else openPieces content
  | .text _ | .raw _ | .void .. => []

def openPieces : List Html → List Html
  | [] => []
  | node :: more => node :: node.openInner ++ openPieces more

end

def sectionIds : Html → List Text
  | .element (.heading level) attrs _ => if level.val = 1 then attributeIds attrs else []
  | .element .. | .text _ | .raw _ | .void .. => []

def sections (nodes : List Html) : List Text := (pieces nodes).flatMap sectionIds

def openSections (nodes : List Html) : List Text := (openPieces nodes).flatMap sectionIds

def EnclosesNone : Html → Prop
  | .element tag _ content => tag.isEnclosure = true → sections content = []
  | .text _ | .raw _ | .void .. => True

section

variable {tag : Tag} {t : Text} {attrs : List Attribute} {void : VoidTag}
  {content nodes more : List Html} {node : Html}

@[simp] theorem sectionIds_element : sectionIds (.element tag attrs content) =
    if tag = .heading 1 then attributeIds attrs else [] := by
  cases tag <;> simp [sectionIds, Fin.ext_iff]

@[simp] theorem sections_nil : sections [] = [] := by simp [sections, pieces]

theorem sections_cons : sections (node :: more) =
    node.sectionIds ++ node.inner.flatMap sectionIds ++ sections more := by
  simp [sections, pieces]

theorem openPieces_append : openPieces (nodes ++ more) = openPieces nodes ++ openPieces more := by
  induction nodes with
  | nil => simp [openPieces]
  | cons node rest ih => simp [openPieces, ih]

@[simp] theorem openSections_nil : openSections [] = [] := by simp [openSections, openPieces]

theorem openSections_cons : openSections (node :: more) =
    node.sectionIds ++ node.openInner.flatMap sectionIds ++ openSections more := by
  simp [openSections, openPieces]

@[simp] theorem openSections_append :
    openSections (nodes ++ more) = openSections nodes ++ openSections more := by
  simp [openSections, openPieces_append]

@[simp] theorem openSections_text : openSections (.text t :: more) = openSections more := by
  simp [openSections_cons, sectionIds, openInner]

@[simp] theorem openSections_newline : openSections (newline :: more) = openSections more :=
  openSections_text

@[simp] theorem openSections_void :
    openSections (.void void attrs :: more) = openSections more := by
  simp [openSections_cons, sectionIds, openInner]

@[simp] theorem openSections_element : openSections (.element tag attrs content :: more) =
    (if tag = .heading 1 then attributeIds attrs else []) ++
      (if tag.isEnclosure then [] else openSections content) ++ openSections more := by
  rw [openSections_cons, sectionIds_element, openInner]
  split <;> split <;> rfl

theorem sections_eq_nil (h : identified (.heading 1) nodes = []) : sections nodes = [] := by
  rw [identified, List.filter_eq_nil_iff] at h
  rw [sections, List.flatMap_eq_nil_iff]
  intro piece hpiece
  have hnone := h piece hpiece
  cases piece with
  | element tag attrs content =>
    rw [sectionIds_element]
    split
    · next htag => simpa [isIdentified, htag] using hnone
    · rfl
  | text t | raw t | void tag attrs => rfl

mutual

theorem openInner_sublist : ∀ node : Html, node.openInner.Sublist node.inner
  | .element tag attrs content => by
    rw [openInner, inner]
    split
    · exact List.nil_sublist _
    · exact openPieces_sublist content
  | .text _ | .raw _ | .void .. => .refl _

theorem openPieces_sublist : ∀ nodes : List Html, (openPieces nodes).Sublist (pieces nodes)
  | [] => .refl _
  | node :: more => by
    rw [openPieces, pieces]
    exact ((openInner_sublist node).cons_cons node).append (openPieces_sublist more)

end

theorem openSections_sublist (nodes : List Html) :
    (openSections nodes).Sublist (sections nodes) :=
  (openPieces_sublist nodes).flatMap sectionIds

theorem openSections_eq_nil (h : identified (.heading 1) nodes = []) : openSections nodes = [] :=
  List.sublist_nil.1 (sections_eq_nil h ▸ openSections_sublist nodes)

/-- A row of two parts is the row of two longer parts only if it has the same parts. -/
theorem append_eq_append_of_sublist {α : Type} {a a' b b' : List α} (ha : a.Sublist a')
    (hb : b.Sublist b') : a ++ b = a' ++ b' ↔ a = a' ∧ b = b' := by
  refine ⟨fun h => ?_, fun ⟨ha, hb⟩ => by rw [ha, hb]⟩
  have hlength := congrArg List.length h
  have hale := ha.length_le
  have hble := hb.length_le
  simp only [List.length_append] at hlength
  exact ⟨ha.eq_of_length (by omega), hb.eq_of_length (by omega)⟩

mutual

theorem openInner_sections_iff : ∀ node : Html,
    node.openInner.flatMap sectionIds = node.inner.flatMap sectionIds ↔ All EnclosesNone node
  | .element tag attrs content => by
    have hcontent := openSections_eq_iff content
    rw [openInner, inner, all_element, EnclosesNone]
    by_cases htag : tag.isEnclosure = true
    · rw [if_pos htag, List.flatMap_nil, eq_comm]
      refine ⟨fun hnone => ⟨fun _ => hnone, hcontent.1 ?_⟩, fun h => h.1 htag⟩
      exact (openSections_sublist content).eq_of_length_le (by simp [sections, hnone])
    · rw [if_neg htag]
      exact hcontent.trans ⟨fun h => ⟨fun htrue => absurd htrue htag, h⟩, And.right⟩
  | .text _ | .raw _ | .void .. => by simp [openInner, inner, EnclosesNone]

/-- The headings outside of enclosures are all headings exactly if no enclosure holds one. -/
theorem openSections_eq_iff : ∀ nodes : List Html,
    openSections nodes = sections nodes ↔ AllPieces EnclosesNone nodes
  | [] => by simp
  | node :: more => by
    have hnode := ((openInner_sublist node).flatMap sectionIds).append_left node.sectionIds
    rw [openSections_cons, sections_cons,
      append_eq_append_of_sublist hnode (openSections_sublist more), List.append_cancel_left_eq,
      openInner_sections_iff node, openSections_eq_iff more, allPieces_cons]

end

end

end Html

open Html Walk

theorem Attr.attributeName_ne_id (key : Text) : attributeName key ≠ "id" := by
  unfold attributeName
  split
  · next h =>
    rintro rfl
    simp [plainKeys] at h
  · simp

theorem Attr.attributeIds_toAttributes (attr : Attr) :
    attributeIds attr.toAttributes = if attr.id = [] then [] else [attr.id] := by
  have hpairs : attributeIds (attr.pairs.map fun p => ⟨attributeName p.1, p.2⟩) = [] := by
    rw [attributeIds, List.map_eq_nil_iff, List.filter_eq_nil_iff, List.forall_mem_map]
    intro p _
    simpa using attributeName_ne_id p.1
  unfold attributeIds at hpairs ⊢
  rw [toAttributes, List.filter_append, List.filter_append, List.map_append, List.map_append,
    hpairs]
  split <;> split <;> simp

theorem Layout.headingTag_eq_iff {level : UInt8} : headingTag level = .heading 1 ↔ level = 2 := by
  rw [← UInt8.toNat_inj]
  simp [headingTag, Fin.ext_iff]
  omega

def SpecialsEmpty (nodes : List TreeNode) : Prop :=
  ∀ attr content, .block (.div attr content) ∈ nodes → attr.isSpecial = true → content = []

theorem SpecialsEmpty.mono {nodes more : List TreeNode} (h : SpecialsEmpty nodes)
    (hmore : more ⊆ nodes) : SpecialsEmpty more :=
  fun attr content hdiv => h attr content (hmore hdiv)

namespace Layout

variable (ctx : LayoutContext)

def Outlines (entries : List OutlineEntry) (markup : List Html) (_ : List (List Html)) : Prop :=
  openSections markup = entries.map (·.anchor)

theorem outlines_of_bare {markup : List Html} {notes : List (List Html)}
    (h : identified (.heading 1) markup = []) : Outlines [] markup notes := openSections_eq_nil h

theorem layoutInlines_noSections (content : List Inline) :
    (layoutInlines ctx content).Ensures fun markup _ => openSections markup = [] :=
  (layoutInlines_identified ctx (by simp [inlineTags]) content).mono fun _ _ => openSections_eq_nil

mutual

theorem layoutBlock_outlines : ∀ block : Block, SpecialsEmpty (.block block :: block.inner) →
    (layoutBlock ctx block).Ensures (Outlines block.outline)
  | .plain content, _ => by
    rw [layoutBlock, Block.outline]
    exact ensures_bind_pure (layoutInlines_noSections ctx content) fun _ _ h => by
      simp [Outlines, h]
  | .para content, _ => by
    rw [layoutBlock, Block.outline]
    exact ensures_bind_pure (layoutInlines_noSections ctx content) fun _ _ h => by
      simp [Outlines, Tag.isEnclosure, h]
  | .header level attr content, _ => by
    rw [layoutBlock, Block.outline]
    refine ensures_bind_pure (layoutInlines_noSections ctx content) fun _ _ h => ?_
    have hopen : (headingTag level).isEnclosure = false := rfl
    simp only [Outlines, openSections_element, headingTag_eq_iff, Attr.attributeIds_toAttributes,
      hopen, h]
    by_cases hlevel : level = 2 <;> by_cases hid : attr.id = [] <;> simp [hlevel, hid]
  | .quote _, _ | .bullets _, _ | .numbered .., _ => by
    rw [layoutBlock, Block.outline]
    exact ensures_bind_pure (ensures_any _) fun _ _ _ => by simp [Outlines, Tag.isEnclosure]
  | .div attr content, hempty => by
    have hcontent : SpecialsEmpty (blockNodes content) := hempty.mono (List.subset_cons_self _ _)
    rw [layoutBlock, Block.outline]
    split
    · next hspecial =>
      rw [hempty attr content (List.mem_cons_self ..) hspecial, outline]
      exact (layoutSpecial_bare ctx attr).mono fun _ _ h => outlines_of_bare h.1
    · split
      · refine ensures_bind_pure (layoutDetails_outlines content hcontent) fun _ _ h => ?_
        simpa [Outlines, Tag.isEnclosure] using h
      · refine ensures_bind_pure (layoutBlocks_outlines content hcontent) fun _ _ h => ?_
        by_cases hnil : content = []
        · subst hnil
          split <;> simp [Outlines, outline, Tag.isEnclosure]
        · split <;> simpa [Outlines, Tag.isEnclosure, hnil] using h
  | .raw format t, _ => by
    rw [layoutBlock, Block.outline]
    exact (layoutRawBlock_bare ctx format t).mono fun _ _ h => outlines_of_bare h.1
  | .code .., _ | .rule, _ => by
    rw [layoutBlock, Block.outline]
    exact ensures_pure (by simp [Outlines, layoutCode, Tag.isEnclosure])

theorem layoutDetails_outlines : ∀ blocks : List Block, SpecialsEmpty (blockNodes blocks) →
    (layoutDetails ctx blocks).Ensures (Outlines (outline blocks))
  | [], _ => by
    rw [layoutDetails, outline]
    exact ensures_pure (by simp [Outlines, Tag.isEnclosure])
  | block :: more, hempty => by
    have hblock := layoutBlock_outlines block (hempty.mono (List.subset_append_left _ _))
    have hmore := layoutBlocks_outlines more (hempty.mono (List.subset_append_right _ _))
    rw [outline]
    refine ensures_layoutDetails hblock hmore (fun summary _ rest _ h hrest => ?_)
      fun markup _ rest _ h hrest => ?_
    · simp only [Outlines] at h hrest ⊢
      rw [List.map_append, ← h, ← hrest]
      simp [Tag.isEnclosure]
    · simp only [Outlines] at h hrest ⊢
      rw [List.map_append, ← h, ← hrest]
      simp [Tag.isEnclosure]

/-- The headings that a page shows outside of quotes and lists are those of its outline. -/
theorem layoutBlocks_outlines : ∀ blocks : List Block, SpecialsEmpty (blockNodes blocks) →
    (layoutBlocks ctx blocks).Ensures (Outlines (outline blocks))
  | [], _ => by
    rw [layoutBlocks, outline]
    exact ensures_pure openSections_nil
  | block :: more, hempty => by
    have hblock := layoutBlock_outlines block (hempty.mono (List.subset_append_left _ _))
    have hmore := layoutBlocks_outlines more (hempty.mono (List.subset_append_right _ _))
    rw [layoutBlocks, outline]
    refine ensures_bind hblock fun _ _ h => ensures_bind_pure hmore fun _ _ hrest => ?_
    rw [Outlines, openSections_append, h, hrest, List.map_append]

end

end Layout

/-- A page without notes is the layout of its blocks. -/
theorem Document.body_of_noNotes (site : SiteContext) {a : Artifact}
    (h : ∀ node ∈ shownBlocks a.blocks, node.isNote = false) :
    (body site a).1 =
      (Layout.layoutBlocks (site.layoutContext a.record.stem) a.blocks 0).1 := by
  have hnumbered : (numberBlocks 0 a.blocks).2 = [] := by
    rw [← List.length_eq_zero_iff, (numberBlocks_counted 0 a.blocks).length_eq, List.countP_eq_zero]
    simpa using h
  have hnotes := (Layout.layoutBlocks_shows (site.layoutContext a.record.stem) 0 a.blocks).notes
  rw [hnumbered, List.forall₂_nil_left_iff] at hnotes
  have hbody : (body site a).1 =
      (Layout.layoutBlocks (site.layoutContext a.record.stem) a.blocks 0).1 ++
        Layout.noteSection
          (Layout.layoutBlocks (site.layoutContext a.record.stem) a.blocks 0).2.notes := rfl
  rw [hbody, hnotes]
  exact List.append_nil _

theorem TreeNode.HasOrigin.isNote {bib : Bibliography} {texts : Text → Prop} {node : TreeNode}
    (h : node.HasOrigin bib texts) : node.isNote = false := by
  unfold TreeNode.isNote
  split
  · exact h.elim
  · rfl

theorem TreeNode.HasOrigin.not_isRawHtml {bib : Bibliography} {texts : Text → Prop}
    {node : TreeNode} (h : node.HasOrigin bib texts) : ¬node.IsRawHtml := by
  unfold TreeNode.IsRawHtml
  split
  · exact RawOrigin.not_isHtml h
  · exact RawOrigin.not_isHtml h
  · exact not_false

/-! ### The links of the table of contents -/

namespace Html

def target? : Html → Option Text
  | .element .a attrs _ => (attrs.find? (·.name = ("href" : Text))).map (·.value)
  | _ => none

def linkTargets (nodes : List Html) : List Text := (pieces nodes).filterMap target?

@[simp] theorem linkTargets_append (nodes more : List Html) :
    linkTargets (nodes ++ more) = linkTargets nodes ++ linkTargets more := by
  rw [linkTargets, pieces_append, List.filterMap_append, linkTargets, linkTargets]

end Html

namespace Outline

theorem linkTargets_layout (entries : List OutlineEntry) :
    linkTargets (layout entries) = entries.map ('#' :: ·.anchor) := by
  have hlines : linkTargets (entries.flatMap fun e => [newline, e.toHtml]) =
      entries.map ('#' :: ·.anchor) := by
    induction entries with
    | nil => simp [linkTargets, pieces]
    | cons e more ih =>
      rw [List.flatMap_cons, linkTargets_append, ih]
      simp [linkTargets, pieces, Html.inner, target?, newline, OutlineEntry.toHtml,
        List.filterMap_cons]
  unfold layout
  split
  · next hempty => simp [hempty, linkTargets, pieces]
  · have hlist (content : List Html) :
        linkTargets [.element .ul [] content] = linkTargets content := by
      simp [linkTargets, pieces, Html.inner, target?, List.filterMap_cons]
    rw [hlist, linkTargets_append, hlines]
    simp [linkTargets, pieces, Html.inner, target?, newline]

/-- The table of contents of a page that has been walked leads to the headings of level 2 that stand
outside of the quotes and lists of its body, in order, and then to the references if there are any.
It leads to all headings of level 2 exactly if no quote and no list holds one. -/
theorem contents_targets {stem source : Text} {bib : Bibliography} {files files' : Store}
    {page : Walked} (h : walkSource (sourceContext stem bib) source files = (.ok page, files'))
    (site : SiteContext) :
    let blocks := page.artifact.blocks
    let body := (Document.body site page.artifact).1
    AllRawFree body ∧
    (∀ hasReferences, linkTargets (contents blocks hasReferences) =
      (openSections body ++ if hasReferences then [("references" : Text)] else []).map ('#' :: ·)) ∧
    (linkTargets (contents blocks false) = (sections body).map ('#' :: ·) ↔
      AllPieces EnclosesNone body) := by
  intro blocks body
  have horigins : ∀ node ∈ blockNodes blocks, node.HasOrigin bib (· <:+: Source.clean source) :=
    ((walkPage_origins stem bib source).finish h).2
  have hopen : openSections body = (outline blocks).map (·.anchor) := by
    have hbody : body = (Layout.layoutBlocks (site.layoutContext _) blocks 0).1 :=
      Document.body_of_noNotes site fun node hnode =>
        (horigins node ((shownBlocks_sublist _).subset hnode)).isNote
    rw [hbody]
    exact Layout.layoutBlocks_outlines _ blocks (fun _ _ hdiv => horigins _ hdiv) 0
  have htargets (hasReferences : Bool) : linkTargets (contents blocks hasReferences) =
      (openSections body ++ if hasReferences then [("references" : Text)] else []).map
        ('#' :: ·) := by
    rw [contents, linkTargets_layout, hopen]
    cases hasReferences <;> simp [references]
  refine ⟨Document.body_rawFree site fun node hnode => (horigins node hnode).not_isRawHtml,
    htargets, ?_⟩
  have hinjective : Function.Injective (('#' :: ·) : Text → Text) :=
    fun _ _ heq => (List.cons.inj heq).2
  rw [htargets, ← openSections_eq_iff, hinjective.list_map.eq_iff]
  simp

def quotedHeading : Text :=
  "\\begin\x7bquote\x7d\n\\family[x]\x7bX\x7d\n\\end\x7bquote\x7d\n"

/-- The page shows the heading, and its table of contents is empty. -/
theorem contents_targets_quotedHeading :
    ∃ page files', walkSource (sourceContext "p" ∅) quotedHeading .empty = (.ok page, files') ∧
      sections (Document.body Document.bareSite page.artifact).1 = ["x"] ∧
      linkTargets (contents page.artifact.blocks false) = [] ∧
      ¬AllPieces EnclosesNone (Document.body Document.bareSite page.artifact).1 := by
  have hwalk : (match (walkSource (sourceContext "p" ∅) quotedHeading .empty).1 with
    | .ok page =>
      sections (Document.body Document.bareSite page.artifact).1 == ["x"] &&
        openSections (Document.body Document.bareSite page.artifact).1 == []
    | .error _ => false) = true := by decide +kernel
  rcases hpage : walkSource (sourceContext "p" ∅) quotedHeading .empty with ⟨r, files'⟩
  rw [hpage] at hwalk
  cases r with
  | error e => cases hwalk
  | ok page =>
    rw [Bool.and_eq_true, beq_iff_eq, beq_iff_eq] at hwalk
    obtain ⟨hsections, hopen⟩ := hwalk
    obtain ⟨-, htargets, hall⟩ := contents_targets hpage Document.bareSite
    have hnone : linkTargets (contents page.artifact.blocks false) = [] := by
      rw [htargets, hopen]
      rfl
    refine ⟨page, files', rfl, hsections, hnone, fun h => ?_⟩
    rw [← hall, hnone, hsections] at h
    cases h

end Outline

end TexCatalog
