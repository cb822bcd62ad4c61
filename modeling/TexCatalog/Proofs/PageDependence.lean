import TexCatalog.Page.Document
import TexCatalog.Proofs.TreeNodes

/-!
# What a page depends on

Two sites with the same template, backend and date make the same page of an artifact if they know
the same of the labels to which its tree refers and of the keys that it cites. Only a block that is
filled in from the data of the site shows more than what the tree mentions.
-/

namespace TexCatalog

/-- Two label indexes answer alike what the layout of a node asks of them, and it does not ask for
the data of the whole site. -/
def TreeNode.AskedAlike (labels labels' : LabelIndex) : TreeNode → Prop
  | .inline (.crossRef _ _ label) => labels.get? label = labels'.get? label
  | .block (.div attr _) => ¬attr.isSpecial
  | _ => True

namespace Layout

section

variable {stem : Text} {labels labels' : LabelIndex} {records records' : RecordIndex}
  {math : MathBackend}

theorem layoutTarget_congr {label : Text} (hlabel : labels.get? label = labels'.get? label)
    (text : Text) : layoutTarget ⟨stem, labels, records, math⟩ label text =
      layoutTarget ⟨stem, labels', records', math⟩ label text := by
  simp only [layoutTarget, LabelIndex.resolve, hlabel, error]

theorem labelTitle_congr {label : Text} (hlabel : labels.get? label = labels'.get? label) :
    labelTitle ⟨stem, labels, records, math⟩ label =
      labelTitle ⟨stem, labels', records', math⟩ label := by
  rw [labelTitle, labelTitle, hlabel]

mutual

theorem layoutInline_congr : ∀ node : Inline,
    (∀ n ∈ .inline node :: node.inner, n.AskedAlike labels labels') →
      layoutInline ⟨stem, labels, records, math⟩ node =
        layoutInline ⟨stem, labels', records', math⟩ node
  | .text _, _ | .code .., _ | .space, _ | .softBreak, _ | .lineBreak, _ | .image .., _
  | .math .inline _, _ | .math .display _, _ => by
    rw [layoutInline, layoutInline]
  | .raw format t, _ => by
    rw [layoutInline, layoutInline]
    rfl
  | .styled _ content, h | .quoted _ content, h | .link _ content _, h | .span _ content, h => by
    rw [layoutInline, layoutInline, layoutInlines_congr content (List.forall_mem_cons.1 h).2]
  | .note content, h => by
    rw [layoutInline, layoutInline, layoutBlocks_congr content (List.forall_mem_cons.1 h).2]
  | .crossRef _ content label, h => by
    rw [List.forall_mem_cons] at h
    have hlabel : labels.get? label = labels'.get? label := h.1
    rw [layoutInline, layoutInline, layoutTarget_congr hlabel, layoutInlines_congr content h.2,
      labelTitle_congr hlabel]

theorem layoutInlines_congr : ∀ nodes : List Inline,
    (∀ n ∈ inlineNodes nodes, n.AskedAlike labels labels') →
      layoutInlines ⟨stem, labels, records, math⟩ nodes =
        layoutInlines ⟨stem, labels', records', math⟩ nodes
  | [], _ => by rw [layoutInlines, layoutInlines]
  | node :: more, h => by
    rw [inlineNodes, List.forall_mem_append] at h
    rw [layoutInlines, layoutInlines, layoutInline_congr node h.1, layoutInlines_congr more h.2]

theorem layoutBlock_congr : ∀ block : Block,
    (∀ n ∈ .block block :: block.inner, n.AskedAlike labels labels') →
      layoutBlock ⟨stem, labels, records, math⟩ block =
        layoutBlock ⟨stem, labels', records', math⟩ block
  | .plain content, h | .para content, h | .header _ _ content, h => by
    rw [layoutBlock, layoutBlock, layoutInlines_congr content (List.forall_mem_cons.1 h).2]
  | .code .., _ | .rule, _ => by
    rw [layoutBlock, layoutBlock]
  | .raw format t, _ => by
    rw [layoutBlock, layoutBlock]
    rfl
  | .quote content, h => by
    rw [layoutBlock, layoutBlock, layoutBlocks_congr content (List.forall_mem_cons.1 h).2]
  | .bullets items, h | .numbered _ items, h => by
    rw [layoutBlock, layoutBlock, layoutItems_congr items (List.forall_mem_cons.1 h).2]
  | .div attr content, h => by
    rw [List.forall_mem_cons] at h
    have hspecial : ¬attr.hasClass "special-block" := h.1
    rw [layoutBlock, layoutBlock, if_neg hspecial, if_neg hspecial, layoutDetails_congr content h.2,
      layoutBlocks_congr content h.2]

theorem layoutDetails_congr : ∀ blocks : List Block,
    (∀ n ∈ blockNodes blocks, n.AskedAlike labels labels') →
      layoutDetails ⟨stem, labels, records, math⟩ blocks =
        layoutDetails ⟨stem, labels', records', math⟩ blocks
  | [], _ => by rw [layoutDetails, layoutDetails]
  | block :: more, h => by
    rw [blockNodes, List.forall_mem_append] at h
    have hblock := layoutBlock_congr block h.1
    have hmore := layoutBlocks_congr more h.2
    cases block with
    | para heading =>
      have hheading := layoutInlines_congr heading (List.forall_mem_cons.1 h.1).2
      rw [layoutDetails, layoutDetails, hheading, hmore]
    | _ => simp only [layoutDetails, hblock, hmore]

/-- Blocks are laid out alike with the answers of other indexes to what their nodes ask. -/
theorem layoutBlocks_congr : ∀ blocks : List Block,
    (∀ n ∈ blockNodes blocks, n.AskedAlike labels labels') →
      layoutBlocks ⟨stem, labels, records, math⟩ blocks =
        layoutBlocks ⟨stem, labels', records', math⟩ blocks
  | [], _ => by rw [layoutBlocks, layoutBlocks]
  | block :: more, h => by
    rw [blockNodes, List.forall_mem_append] at h
    rw [layoutBlocks, layoutBlocks, layoutBlock_congr block h.1, layoutBlocks_congr more h.2]

theorem layoutItem_congr : ∀ item : List Block,
    (∀ n ∈ blockNodes item, n.AskedAlike labels labels') →
      layoutItem ⟨stem, labels, records, math⟩ item =
        layoutItem ⟨stem, labels', records', math⟩ item
  | [], _ => by rw [layoutItem, layoutItem]
  | block :: more, h => by
    rw [blockNodes, List.forall_mem_append] at h
    have hblock := layoutBlock_congr block h.1
    have hmore := layoutBlocks_congr more h.2
    cases block with
    | para content | plain content =>
      have hcontent := layoutInlines_congr content (List.forall_mem_cons.1 h.1).2
      cases more with
      | nil => rw [layoutItem, layoutItem, hcontent]
      | cons next rest => simp only [layoutItem, hblock, hmore]
    | _ => simp only [layoutItem, hblock, hmore]

theorem layoutItems_congr : ∀ items : List (List Block),
    (∀ n ∈ itemNodes items, n.AskedAlike labels labels') →
      layoutItems ⟨stem, labels, records, math⟩ items =
        layoutItems ⟨stem, labels', records', math⟩ items
  | [], _ => by rw [layoutItems, layoutItems]
  | item :: more, h => by
    rw [itemNodes, List.forall_mem_append] at h
    rw [layoutItems, layoutItems, layoutItem_congr item h.1, layoutItems_congr more h.2]

end

end

end Layout

namespace Bibliography

variable {bib bib' : Bibliography}

theorem items_congr {keys : List Text} (h : ∀ key ∈ keys, bib.get? key = bib'.get? key) :
    bib.items keys = bib'.items keys := by
  induction keys with
  | nil => rfl
  | cons key more ih =>
    rw [List.forall_mem_cons] at h
    have hitem : bib.item key = bib'.item key := by rw [item, item, h.1]
    rw [items, items, hitem, ih h.2]

/-- The references are made of the entries of the keys alone. -/
theorem section?_congr {order : List Text} (h : ∀ key ∈ order, bib.get? key = bib'.get? key) :
    bib.section? order = bib'.section? order := by
  rw [section?, section?, items_congr h]

end Bibliography

namespace Document

/-- Sites that answer alike what a tree mentions make the same page of it, or fail alike: its name,
its text and its diagnostics are those of either, whatever else their indexes and bibliographies
hold. -/
theorem make_eq_of_mentioned {site site' : SiteContext} {a : Artifact}
    (htemplate : site.template = site'.template) (hmath : site.math = site'.math)
    (hdate : site.date = site'.date)
    (hspecial : ∀ attr content, .block (.div attr content) ∈ blockNodes a.blocks →
      ¬attr.hasClass "special-block")
    (hlabels : ∀ attr content label,
      .inline (.crossRef attr content label) ∈ blockNodes a.blocks →
      site.labels.get? label = site'.labels.get? label)
    (hkeys : ∀ key ∈ citationOrder a.blocks a.record.citations,
      site.bibliography.get? key = site'.bibliography.get? key) :
    make site a = make site' a := by
  obtain ⟨labels, records, bib, template, math, date⟩ := site
  obtain ⟨labels', records', bib', template', math', date'⟩ := site'
  subst htemplate hmath hdate
  have hasked : ∀ node ∈ blockNodes a.blocks, node.AskedAlike labels labels' := by
    intro node hnode
    unfold TreeNode.AskedAlike
    split
    · exact hlabels _ _ _ hnode
    · exact hspecial _ _ hnode
    · trivial
  have hbody : body ⟨labels, records, bib, template, math, date⟩ a =
      body ⟨labels', records', bib', template, math, date⟩ a := by
    have hblocks : Layout.layoutBlocks ⟨a.record.stem, labels, records, math⟩ a.blocks =
        Layout.layoutBlocks ⟨a.record.stem, labels', records', math⟩ a.blocks :=
      Layout.layoutBlocks_congr a.blocks hasked
    simp only [body, hblocks]
  have hslots (references : List Html) :
      slots ⟨labels, records, bib, template, math, date⟩ a references =
        slots ⟨labels', records', bib', template, math, date⟩ a references := by
    simp only [slots, hbody]
  simp only [make, Bibliography.section?_congr hkeys, hslots, hbody]

def referringPage : Artifact where
  record := { stem := "p" }
  blocks := [.para [.crossRef .empty [] "gap", .link ⟨[], [], [("data-cite", "Cor14")]⟩ []
    ⟨"#Cor14", []⟩]]

def smallSite : SiteContext where
  labels := .ofList [("gap", ⟨"g", "g.htm#gap", "Gaps"⟩)]
  records := ∅
  bibliography := .ofEntries [{ id := "Cor14", title := some "Graphs" }]
  template := ⟨"\x7b\x7bbody\x7d\x7d\x7b\x7bbibliography\x7d\x7d"⟩
  math := .mathml
  date := []

def grownSite : SiteContext :=
  { smallSite with
    labels := smallSite.labels.insert "area" ⟨"a", "a.htm#area", []⟩
    records := .ofList [("area", .ofList [("Name", "Area")])]
    bibliography := smallSite.bibliography.insert "New97" { id := "New97" } }

/-- The page does not see that the site has grown. -/
theorem make_referringPage : smallSite.labels.get? "area" ≠ grownSite.labels.get? "area" ∧
    smallSite.bibliography.get? "New97" ≠ grownSite.bibliography.get? "New97" ∧
    smallSite.records.entries.length ≠ grownSite.records.entries.length ∧
    make smallSite referringPage = make grownSite referringPage := by
  refine ⟨?_, ?_, nofun, ?_⟩
  · simp [smallSite, grownSite, TextMap.ofList, TextMap.get?_insert, TextMap.get?_empty]
  · simp [smallSite, grownSite, Bibliography.ofEntries, TextMap.ofList, TextMap.get?_insert,
      TextMap.get?_empty]
  refine make_eq_of_mentioned rfl rfl rfl ?_ ?_ ?_
  · simp [referringPage, blockNodes, Block.inner, inlineNodes, Inline.inner]
  · intro attr content label h
    obtain ⟨-, -, rfl⟩ : attr = .empty ∧ content = [] ∧ label = "gap" := by
      simpa [referringPage, blockNodes, Block.inner, inlineNodes, Inline.inner] using h
    simp [smallSite, grownSite, TextMap.get?_insert]
  · have hcited : citationOrder referringPage.blocks referringPage.record.citations =
        [("Cor14" : Text)] := by
      simp [citationOrder, referringPage, blockCitations, Block.citations, inlineCitations,
        Inline.citations, citedKey, Attr.get?]
      rfl
    rw [hcited]
    simp [smallSite, grownSite, TextMap.get?_insert]

end Document

end TexCatalog
