import TexCatalog.Page.Document
import TexCatalog.Proofs.Findings
import TexCatalog.Proofs.Markup

/-!
# Markup of a finished page

The table of contents, the body and the references of a page are well nested markup, whatever texts
stand in the tree, in the indexes of the site and in its bibliography. A template with nothing but
these three slots shows it of the page as a whole.
-/

namespace TexCatalog

open Html Markup

namespace Outline

theorem layout_rawFree (entries : List OutlineEntry) : AllRawFree (layout entries) := by
  unfold layout
  split
  · exact allRawFree_nil
  · simp [OutlineEntry.toHtml]

end Outline

namespace Bibliography

/-- A reference is made of texts, links and emphasis. -/
theorem referenceItem_all {H : Html → Prop} (htext : ∀ t, H (.text t)) (hraw : ∀ t, ¬H (.raw t))
    (hlink : ∀ attrs content, H (.element .a attrs content))
    (hemphasis : ∀ attrs content, H (.element .em attrs content)) (e : Entry) :
    AllPieces H (referenceItem e) := by
  have hbyline : AllPieces H (byline e) := by
    unfold byline
    split <;> simp [htext]
  have hheading : AllPieces H (heading e) := by
    unfold heading
    split <;> simp [htext, hlink]
  have horigin : AllPieces H (origin e) := by
    unfold origin
    split
    · simp [htext, hemphasis]
    · split <;> simp [htext, hemphasis]
  apply AllPieces.trimEnd htext hraw
  simp [hbyline, hheading, horigin, htext]

theorem referenceItem_rawFree (e : Entry) : AllRawFree (referenceItem e) := by
  rw [allRawFree_iff_allPieces]
  exact referenceItem_all (fun _ => not_false) (fun _ h => h trivial) (fun _ _ => not_false)
    (fun _ _ => not_false) e

theorem item_rawFree {bib : Bibliography} {key : Text} {node : Html}
    (h : bib.item key = .ok node) : node.RawFree := by
  unfold item at h
  split at h
  · cases h
    simp
  · next entry _ =>
    cases hlabel : displayLabel entry with
    | error e =>
      rw [hlabel] at h
      cases h
    | ok label =>
      rw [hlabel] at h
      cases h
      simp [referenceItem_rawFree]

theorem items_rawFree {bib : Bibliography} {keys : List Text} {nodes : List Html}
    (h : bib.items keys = .ok nodes) : AllRawFree nodes := by
  induction keys generalizing nodes with
  | nil =>
    cases h
    exact allRawFree_nil
  | cons key more ih =>
    unfold items at h
    split at h
    · cases h
    · next node hnode =>
      cases hmore : bib.items more with
      | error e =>
        rw [hmore] at h
        cases h
      | ok rest =>
        rw [hmore] at h
        cases h
        have hrest := ih hmore
        simp [item_rawFree hnode, hrest]

theorem section?_rawFree {bib : Bibliography} {order : List Text} {nodes : List Html}
    (h : bib.section? order = .ok nodes) : AllRawFree nodes := by
  unfold section? at h
  split at h
  · cases h
    exact allRawFree_nil
  · cases hitems : bib.items order with
    | error e =>
      rw [hitems] at h
      cases h
    | ok items =>
      rw [hitems] at h
      cases h
      simp [items_rawFree hitems]

end Bibliography

namespace Template

section

variable {name : Text} (hne : name ≠ []) (hname : ∀ c ∈ name, isNameChar c ∧ ¬c.isBlank)
  (rest : Text)

include hne hname

theorem slot?_slot : slot? (slot name ++ rest) = some (name, rest) := by
  have hopened : slotOpening.isPrefixOf? (slot name ++ rest) =
      some (name ++ '}' :: '}' :: rest) := by
    rw [Text.isPrefixOf?_eq_some]
    simp [slot, slotClosing]
  have hstart : Text.trimStart (name ++ '}' :: '}' :: rest) = name ++ '}' :: '}' :: rest := by
    obtain ⟨c, more, rfl⟩ := List.exists_cons_of_ne_nil hne
    exact List.dropWhile_cons_of_neg (hname c (List.mem_cons_self ..)).2
  have hstop : ¬isNameChar '}' := by decide
  have htake : (name ++ '}' :: '}' :: rest).takeWhile isNameChar = name := by
    rw [List.takeWhile_append_of_pos fun c hc => (hname c hc).1, List.takeWhile_cons_of_neg hstop,
      List.append_nil]
  have hclosed : slotClosing.isPrefixOf?
      (Text.trimStart ((name ++ '}' :: '}' :: rest).dropWhile isNameChar)) = some rest := by
    rw [List.dropWhile_append_of_pos fun c hc => (hname c hc).1, List.dropWhile_cons_of_neg hstop,
      Text.isPrefixOf?_eq_some]
    rfl
  simp only [slot?, hopened, hstart, htake, hclosed, Option.bind_eq_bind, Option.bind_some,
    if_neg hne]

/-- A slot is found as it is usually written. -/
theorem pieces_slot : pieces (slot name ++ rest) = .slot name (slot name) :: pieces rest := by
  have hslot := slot?_slot hne hname rest
  have hspelling : (slot name ++ rest).take ((slot name ++ rest).length - rest.length) =
      slot name := by
    rw [List.length_append, Nat.add_sub_cancel, List.take_left]
  change slot? ('{' :: ('{' :: name ++ slotClosing ++ rest)) = _ at hslot
  change pieces ('{' :: ('{' :: name ++ slotClosing ++ rest)) = _
  change ('{' :: ('{' :: name ++ slotClosing ++ rest)).take _ = _ at hspelling
  rw [pieces]
  split
  · next h =>
    rw [hslot] at h
    cases h
    exact congrArg (fun t => .slot name t :: pieces rest) hspelling
  · next h =>
    rw [hslot] at h
    cases h

end

/-- The template with the slots for the table of contents, the body and the references only. -/
def bare : Template := ⟨slot "toc" ++ slot "body" ++ slot "bibliography"⟩

theorem pieces_bare : pieces bare.source =
    [.slot "toc" (slot "toc"), .slot "body" (slot "body"),
      .slot "bibliography" (slot "bibliography")] := by
  have hnames : ∀ name ∈ [("toc" : Text), "body", "bibliography"],
      name ≠ [] ∧ ∀ c ∈ name, isNameChar c ∧ ¬c.isBlank := by
    simp [isNameChar, Char.isBlank]
  have hslot {name : Text} (h : name ∈ [("toc" : Text), "body", "bibliography"]) (rest : Text) :
      pieces (slot name ++ rest) = .slot name (slot name) :: pieces rest :=
    pieces_slot (hnames name h).1 (hnames name h).2 rest
  have hlast := hslot (by simp : ("bibliography" : Text) ∈ _) []
  rw [List.append_nil, pieces] at hlast
  rw [bare, List.append_assoc, hslot (by simp), hslot (by simp), hlast]

theorem fill_bare (values : TextMap Text) {toc body bibliography : Text}
    (htoc : values.get? "toc" = some toc) (hbody : values.get? "body" = some body)
    (hbibliography : values.get? "bibliography" = some bibliography) :
    bare.fill values = toc ++ body ++ bibliography := by
  unfold fill
  rw [pieces_bare]
  simp only [List.flatMap_cons, List.flatMap_nil, Piece.fill, htoc, hbody, hbibliography,
    Option.getD_some, List.append_nil, List.append_assoc]

end Template

namespace Document

section

variable (site : SiteContext) (a : Artifact) (references : List Html)

theorem get?_slots_toc : (slots site a references).get? "toc" =
    some (printAll (Outline.contents a.blocks (!references.isEmpty))) := by
  unfold slots TextMap.ofList
  rw [TextMap.get?_foldl_insert (by simp)]
  simp [TextMap.find]

theorem get?_slots_body :
    (slots site a references).get? "body" = some (printAll (body site a).1) := by
  unfold slots TextMap.ofList
  rw [TextMap.get?_foldl_insert (by simp)]
  simp [TextMap.find]

theorem get?_slots_bibliography :
    (slots site a references).get? "bibliography" = some (printAll references) := by
  unfold slots TextMap.ofList
  rw [TextMap.get?_foldl_insert (by simp)]
  simp [TextMap.find]

end

/-- A page whose tree has no raw nodes of the target language is well nested markup, whatever the
texts in its tree, in the indexes of the site and in the bibliography are. -/
theorem make_nested (site : SiteContext) (a : Artifact) (d : Document)
    (htemplate : site.template = ⟨"\x7b\x7btoc\x7d\x7d\x7b\x7bbody\x7d\x7d\x7b\x7bbibliography\x7d\x7d"⟩)
    (hraw : ∀ format t, format.isHtml = true →
      .inline (.raw format t) ∉ blockNodes a.blocks ∧ .block (.raw format t) ∉ blockNodes a.blocks)
    (h : make site a = .ok d) : Nested [] d.text := by
  have hbare : site.template = Template.bare := by
    rw [htemplate]
    simp [Template.bare, Template.slot, Template.slotOpening, Template.slotClosing]
  have hfree : HtmlFree (blockNodes a.blocks) := by
    intro node hnode hformat
    unfold TreeNode.IsRawHtml at hformat
    split at hformat
    · next format t => exact (hraw format t hformat).1 hnode
    · next format t => exact (hraw format t hformat).2 hnode
    · exact hformat
  unfold make at h
  split at h
  · cases h
  · next references hreferences =>
    cases h
    have hreferences := printAll_nested .done references (Bibliography.section?_rawFree hreferences)
    have hbody := printAll_nested hreferences (body site a).1 (body_rawFree site hfree)
    have htoc := printAll_nested hbody (Outline.contents a.blocks (!references.isEmpty))
      (Outline.layout_rawFree _)
    rw [List.append_nil] at htoc
    simp only [hbare, Template.fill_bare _ (get?_slots_toc site a references)
      (get?_slots_body site a references) (get?_slots_bibliography site a references)]
    rwa [List.append_assoc]

def bareSite : SiteContext where
  labels := ∅
  records := ∅
  bibliography := ∅
  template := Template.bare
  math := .mathml
  date := []

def hostilePage : Artifact where
  record := { stem := "p" }
  blocks := [.para [.link .empty [.text "<b>"] ⟨"\">", []⟩]]

/-- The hostile page is well nested, and shows what it tried to write. -/
theorem make_nested_hostilePage : ∃ d, make bareSite hostilePage = .ok d ∧
    d.text = "<p><a href=\"&quot;&gt;\">&lt;b&gt;</a></p>\n" ∧ Nested [] d.text := by
  have htext : (match make bareSite hostilePage with
    | .ok d => decide (d.text = "<p><a href=\"&quot;&gt;\">&lt;b&gt;</a></p>\n")
    | .error _ => false) = true := by decide +kernel
  rcases hd : make bareSite hostilePage with e | d
  · rw [hd] at htext
    cases htext
  · rw [hd] at htext
    refine ⟨d, rfl, of_decide_eq_true htext, ?_⟩
    apply make_nested bareSite hostilePage d (by decide +kernel) _ hd
    intro format t _
    simp [hostilePage, blockNodes, Block.inner, inlineNodes, Inline.inner]

end Document

end TexCatalog
