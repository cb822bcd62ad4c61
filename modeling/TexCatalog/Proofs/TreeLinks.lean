import TexCatalog.Page.Layout
import TexCatalog.Proofs.NodeOrigins
import TexCatalog.Proofs.RecordCoverage

/-!
# Links in the tree of a page

The links in the tree of a page that are marked as citations are those that the citation form makes:
each has one text, the label under which the bibliography knows its key. Neither the reader nor any
other form marks a link, and none of them makes a piece of the target language. Links to labels of
the site become references, unless they were written as links to files.
-/

namespace TexCatalog

open Walk

def Attr.Uncited (attr : Attr) : Prop :=
  ∀ p ∈ attr.pairs, attributeName p.1 ≠ "data-cite"

def TreeNode.CitesWell (bib : Bibliography) : TreeNode → Prop
  | .inline (.link attr content target) =>
    attr.Uncited ∨ ∃ key shown, .link attr content target = citation key shown ∧ bib.Shows key shown
  | .inline (.crossRef attr _ _) => attr.Uncited
  | .inline (.raw format _) | .block (.raw format _) => ¬format.isHtml
  | _ => True

def WellCited (bib : Bibliography) (nodes : List TreeNode) : Prop :=
  ∀ node ∈ nodes, node.CitesWell bib

def BlocksCite (bib : Bibliography) (blocks : List Block) (_ : Notes) : Prop :=
  WellCited bib (blockNodes blocks)

theorem Attr.uncited_of_titles {attr : Attr} (h : ∀ p ∈ attr.pairs, p.1 = ("title" : Text)) :
    attr.Uncited := by
  have hname : attributeName "title" ≠ "data-cite" := by simp [attributeName, plainKeys]
  intro p hp
  rwa [h p hp]

theorem Format.isHtml_of_isTex {format : Format} (h : format.isTex) : ¬format.isHtml := by
  intro hhtml
  simp only [isTex, isHtml, Bool.or_eq_true, beq_iff_eq] at h hhtml
  rw [hhtml] at h
  revert h
  simp

theorem RawOrigin.not_isHtml {tables : Pattern → Prop} {texts : Text → Prop} {format : Format}
    {text : Text} (h : RawOrigin tables texts format text) : ¬format.isHtml := by
  cases h with
  | tex htex _ => exact Format.isHtml_of_isTex htex
  | table _ _ _ =>
    have htable : ¬Format.table.isHtml := by simp [Format.isHtml, Format.table]
    exact htable

/-- Nodes cite well wherever they come from. -/
theorem TreeNode.HasOrigin.citesWell {bib : Bibliography} {texts : Text → Prop} {node : TreeNode}
    (h : node.HasOrigin bib texts) : node.CitesWell bib := by
  unfold CitesWell
  split
  · next attr content target =>
    have hlink : LinkOrigin bib texts (.link attr content target) := h
    generalize hnode : Inline.link attr content target = link at hlink
    cases hlink with
    | away content hpairs _ =>
      cases hnode
      exact .inl (Attr.uncited_of_titles (by simp [hpairs]))
    | file content _ _ =>
      cases hnode
      exact .inl (Attr.uncited_of_titles (by simp [Attr.empty]))
    | citation hshown => exact .inr ⟨_, _, rfl, hshown⟩
  · exact Attr.uncited_of_titles h
  · exact RawOrigin.not_isHtml h
  · exact RawOrigin.not_isHtml h
  · trivial

/-- All nodes in the tree of a page cite well. -/
theorem walkPage_cites (stem : Text) (bib : Bibliography) (source : Text) :
    (walkPage Form.vocabulary (sourceContext stem bib) source).Ensures (BlocksCite bib) :=
  (walkPage_origins stem bib source).mono fun _ _ h node hnode => (h node hnode).citesWell

/-! ## Links to labels of the site

The walk turns the links of a page to labels of the site into references that are looked up later.
What stays a link is a citation, or was written as a link to a file: there the path is taken as it
is, also when it looks like a label.
-/

/-- A link to a label of the site in the tree of a page is marked as a citation, or it is the link
that a command for links to files in the source of the page stands for. -/
theorem internal_link_origin {stem source : Text} {bib : Bibliography} {files files' : Store}
    {page : Walked} (h : walkSource (sourceContext stem bib) source files = (.ok page, files'))
    {attr : Attr} {content : List Inline} {target : Target}
    (hlink : .inline (.link attr content target) ∈ blockNodes page.artifact.blocks)
    (hinternal : target.IsInternal) :
    (attr.get? "data-cite").isSome ∨
      attr = .empty ∧ target.title = [] ∧ ∃ text inv, text <:+: Source.clean source ∧
        ((Pattern.command ["filelink"]).withArgs 2).match? text = some inv ∧
        target.url = inv.arg 0 := by
  have horigin : LinkOrigin bib (· <:+: Source.clean source) (.link attr content target) :=
    ((walkPage_origins stem bib source).finish h).2 _ hlink
  generalize hnode : Inline.link attr content target = link at horigin
  cases horigin with
  | away content hpairs haway =>
    cases hnode
    exact absurd hinternal haway
  | file content htext hmatch =>
    cases hnode
    exact .inr ⟨rfl, rfl, _, _, htext, hmatch, rfl⟩
  | @citation key shown _ =>
    cases hnode
    have hkey : ((Attr.ofClasses ["cite"]).set "data-cite" key).get? "data-cite" = some key := by
      simp [Attr.get?, Attr.set, Attr.setPair, Attr.ofClasses]
    rw [hkey]
    exact .inl rfl

def labelFile : Text := "\\filelink\x7b#gap\x7d\x7bx\x7d"

def isInternalLink (label : Text) : List Block → Bool
  | [.para [.link attr _ target]] =>
    (attr.get? "data-cite").isNone && target.url == '#' :: label
  | _ => false

theorem exists_of_isInternalLink {label : Text} {blocks : List Block}
    (h : isInternalLink label blocks = true) :
    ∃ attr content target, .inline (.link attr content target) ∈ blockNodes blocks ∧
      target.url = '#' :: label ∧ (attr.get? "data-cite").isNone := by
  unfold isInternalLink at h
  split at h
  · next attr content target =>
    rw [Bool.and_eq_true, beq_iff_eq] at h
    exact ⟨attr, content, target, by simp [blockNodes, Block.inner, inlineNodes], h.2, h.1⟩
  · cases h

theorem labelFile_link : ∃ page files' attr content target,
    walkSource (sourceContext "p" ∅) labelFile .empty = (.ok page, files') ∧
      .inline (.link attr content target) ∈ blockNodes page.artifact.blocks ∧
      target.url = '#' :: "gap" ∧ (attr.get? "data-cite").isNone := by
  have hwalk : (match (walkSource (sourceContext "p" ∅) labelFile .empty).1 with
    | .ok page => isInternalLink "gap" page.artifact.blocks
    | .error _ => false) = true := by decide +kernel
  rcases hpage : walkSource (sourceContext "p" ∅) labelFile .empty with ⟨r, files'⟩
  rw [hpage] at hwalk
  cases r with
  | error e => cases hwalk
  | ok page =>
    obtain ⟨attr, content, target, hlink⟩ := exists_of_isInternalLink hwalk
    exact ⟨page, files', attr, content, target, rfl, hlink⟩

/-- The path is not looked at: the link to the label stays a link, without the mark of a
citation. -/
theorem internal_link_left : ∃ page files' attr content target,
    walkSource (sourceContext "p" ∅) labelFile .empty = (.ok page, files') ∧
      .inline (.link attr content target) ∈ blockNodes page.artifact.blocks ∧
      (∃ label, label ≠ [] ∧ target.url = '#' :: label) ∧ ¬(attr.get? "data-cite").isSome := by
  obtain ⟨page, files', attr, content, target, hpage, hlink, hurl, hcite⟩ := labelFile_link
  refine ⟨page, files', attr, content, target, hpage, hlink, ⟨_, by simp, hurl⟩, ?_⟩
  rwa [Bool.not_eq_true, Option.isSome_eq_false_iff]

/-- It is the link that the command stands for. -/
theorem internal_link_origin_labelFile : ∃ page files' attr content target,
    walkSource (sourceContext "p" ∅) labelFile .empty = (.ok page, files') ∧
      .inline (.link attr content target) ∈ blockNodes page.artifact.blocks ∧
      target.IsInternal ∧ ∃ text inv, text <:+: Source.clean labelFile ∧
        ((Pattern.command ["filelink"]).withArgs 2).match? text = some inv ∧
        target.url = inv.arg 0 := by
  obtain ⟨page, files', attr, content, target, hpage, hlink, hurl, hcite⟩ := labelFile_link
  have hinternal : target.IsInternal := ⟨_, by simp, hurl⟩
  refine ⟨page, files', attr, content, target, hpage, hlink, hinternal, ?_⟩
  rcases internal_link_origin hpage hlink hinternal with hcited | ⟨_, _, horigin⟩
  · rw [Option.isNone_iff_eq_none] at hcite
    rw [hcite] at hcited
    cases hcited
  · exact horigin

end TexCatalog
