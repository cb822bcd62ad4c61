import TexCatalog.Proofs.FormRelations
import TexCatalog.Proofs.LayoutAnchors
import TexCatalog.Proofs.RecordCoverage
import TexCatalog.Proofs.SiteIndexes
import TexCatalog.Proofs.WalkLabels

/-!
# Resolved cross-references

The label index of a site says of a label on which page it stands. The page has an anchor for it,
unless the label was found in the description of a topic card and nowhere else on the page.
-/

namespace TexCatalog

namespace Merged

/-- A label that resolves to a page was found on a page with its stem. -/
theorem exists_page_of_resolve {pages : List PageRecord} {stem label : Text}
    (h : LabelIndex.resolve (merge pages).labels label =
      .resolved (stem ++ ".htm" ++ '#' :: label)) :
    ∃ page ∈ pages, page.stem = stem ∧ label ∈ page.labels := by
  unfold LabelIndex.resolve at h
  split at h
  · next entry hentry =>
    have hfound := (get?_labelIndex _ _).symm.trans hentry
    obtain ⟨page, hpage, hentry⟩ := List.exists_of_findSome?_eq_some hfound
    obtain ⟨hlabel, hentry⟩ := Option.ite_none_right_eq_some.1 hentry
    cases hentry
    refine ⟨page, Text.mem_sortBy.1 hpage, ?_, TextSet.contains_iff.1 hlabel⟩
    have hhref : page.href label = stem ++ ".htm" ++ '#' :: label := RefTarget.resolved.inj h
    exact List.append_cancel_right (List.append_cancel_right hhref)
  · cases h

end Merged

/-- With quiet topic cards the labels of a page are its anchors. -/
theorem walkQuiet_labels {stem source : Text} {bib : Bibliography} {files files' : Store}
    {page : Walked} (h : walkQuiet (sourceContext stem bib) source files = (.ok page, files'))
    (label : Text) :
    label ∈ anchors (shownBlocks page.artifact.blocks) ↔ label ∈ page.artifact.record.labels := by
  have hkept := ((walkPage_keeps stem bib source).finish h).2
  have hcovers := ((walkPage_covers Form.quietVocabulary stem bib source).finish h).2
  constructor
  · intro hanchor
    obtain ⟨hne, node, hnode, hanchor⟩ := mem_anchors.1 hanchor
    have hid : node.identifier = label := by
      rw [TreeNode.identifier_of_anchor (hanchor ▸ hne), hanchor]
    have hknows := hcovers node ((shownBlocks_sublist _).subset hnode)
    rw [← hid] at hne ⊢
    exact hknows.identifier hne
  · intro hlabel
    exact hkept label (.inl hlabel)

/-- A label that resolves to a page has an anchor there exactly if it is found with quiet topic
cards, that is, if it stands somewhere else than in the description of a card. An anchor is the
identifier of an element of the finished page, whatever the site. -/
theorem resolved_label_anchored_iff (bib : Bibliography) (sources : List (Text × Text))
    (pages : List Walked) (files : Store)
    (hpages : List.Forall₂ (fun source page =>
      (walkSource (sourceContext source.1 bib) source.2 files).1 = .ok page) sources pages)
    (stem label : Text)
    (h : LabelIndex.resolve (merge (pages.map (·.artifact.record))).labels label =
      .resolved (stem ++ ".htm" ++ '#' :: label)) :
    ∃ source page quiet, (stem, source) ∈ sources ∧ page ∈ pages ∧
      (walkSource (sourceContext stem bib) source files).1 = .ok page ∧
      (walkQuiet (sourceContext stem bib) source files).1 = .ok quiet ∧
      quiet.artifact.blocks = page.artifact.blocks ∧
      (label ∈ anchors (shownBlocks page.artifact.blocks) ↔
        label ∈ quiet.artifact.record.labels) ∧
      (label ∈ anchors (shownBlocks page.artifact.blocks) →
        ∀ site, label ∈ Html.allIds (Document.body site page.artifact).1) := by
  obtain ⟨record, hrecord, hstem, _⟩ := Merged.exists_page_of_resolve h
  obtain ⟨page, hpage, rfl⟩ := List.mem_map.1 hrecord
  obtain ⟨⟨stem', source⟩, hsource, hwalk⟩ := exists_of_mem_right hpages hpage
  rcases hfiles : walkSource (sourceContext stem' bib) source files with ⟨r, files'⟩
  rw [hfiles] at hwalk
  cases hwalk
  have hstem' := ((walkPage_covers Form.vocabulary stem' bib source).finish hfiles).1
  rw [hstem] at hstem'
  subst hstem'
  obtain ⟨quiet, hquiet, hblocks⟩ := walkQuiet_alike hfiles
  refine ⟨source, page, quiet, hsource, hpage, congrArg Prod.fst hfiles,
    congrArg Prod.fst hquiet, hblocks, ?_, ?_⟩
  · rw [← hblocks]
    exact walkQuiet_labels hquiet label
  · intro hanchor site
    exact Document.anchors_subset_body site page.artifact label hanchor

def labelledCard : Text :=
  "\\topiccard\x7bq\x7d\x7bCard\x7d\x7b\\label\x7bgap\x7d\x7d\n\nSee \\ref\x7bgap\x7d.\n"

/-- The label in the description of a card resolves, and its page has no anchor for it. -/
theorem resolved_label_of_card_not_anchored : ∃ page,
    (walkSource (sourceContext "p" ∅) labelledCard .empty).1 = .ok page ∧
      LabelIndex.resolve (merge [page.artifact.record]).labels "gap" = .resolved "p.htm#gap" ∧
      ("gap" : Text) ∉ anchors (shownBlocks page.artifact.blocks) := by
  have hwalk : (match (walkSource (sourceContext "p" ∅) labelledCard .empty).1 with
    | .ok page => decide (LabelIndex.resolve (merge [page.artifact.record]).labels "gap" =
        .resolved "p.htm#gap")
    | .error _ => false) = true := by decide +kernel
  have hquiet : (match (walkQuiet (sourceContext "p" ∅) labelledCard .empty).1 with
    | .ok quiet => quiet.artifact.record.labels.contains "gap"
    | .error _ => true) = false := by decide +kernel
  rcases hpage : (walkSource (sourceContext "p" ∅) labelledCard .empty).1 with e | page
  · rw [hpage] at hwalk
    cases hwalk
  · rw [hpage] at hwalk
    have hresolve : LabelIndex.resolve (merge [page.artifact.record]).labels "gap" =
        .resolved "p.htm#gap" := of_decide_eq_true hwalk
    obtain ⟨source, page', quiet, hsource, hpage', _, hquiet', _, hiff, _⟩ :=
      resolved_label_anchored_iff ∅ [("p", labelledCard)] [page] .empty (.cons hpage .nil) "p" "gap"
        (by simpa using hresolve)
    cases List.mem_singleton.1 hsource
    cases List.mem_singleton.1 hpage'
    rw [hquiet'] at hquiet
    have hnone : quiet.artifact.record.labels.contains "gap" = false := hquiet
    refine ⟨page, rfl, hresolve, fun hanchor => ?_⟩
    rw [TextSet.contains_iff.2 (hiff.1 hanchor)] at hnone
    cases hnone

/-! ## Anchors that pages share

A label on two pages is an error of the merge, which names all its pages. So without the error all
elements that carry the label stand on one page. How many they are there the merge cannot tell: the
labels of a page are a set, and a label that its page defines twice is in it like any other.
-/

namespace Merged

/-- The error for a label of several pages is among the problems. -/
theorem sharedLabel_mem_check {pages : List PageRecord} {label : Text}
    (h : 1 < (owners pages label).length) :
    sharedLabel label (owners pages label) ∈ check pages := by
  obtain ⟨stem, hstem⟩ := List.exists_mem_of_length_pos (Nat.zero_lt_of_lt h)
  obtain ⟨page, hpage, _, hlabel⟩ := mem_owners.1 hstem
  refine List.mem_append_left _ (List.mem_flatMap.2 ⟨label, ?_, ?_⟩)
  · exact mem_keys_labelIndex.2 ⟨page, hpage, hlabel⟩
  · rw [checkOwners, if_pos h]
    exact List.mem_singleton_self _

/-- A label on two pages with stems of their own is reported. -/
theorem exists_sharedLabel {pages : List PageRecord} {a b : PageRecord} (ha : a ∈ pages)
    (hb : b ∈ pages) (hne : a.stem ≠ b.stem) {label : Text} (hlabel : label ∈ a.labels)
    (hlabel' : label ∈ b.labels) :
    ∃ stems, sharedLabel label stems ∈ (merge pages).diagnostics := by
  have howner {page : PageRecord} (hpage : page ∈ pages) (hdefines : label ∈ page.labels) :
      page.stem ∈ owners (Text.sortBy (·.stem) pages) label :=
    mem_owners.2 ⟨page, Text.mem_sortBy.2 hpage, rfl, hdefines⟩
  refine ⟨_, sharedLabel_mem_check ?_⟩
  have hboth := And.intro (howner ha hlabel) (howner hb hlabel')
  match hstems : owners (Text.sortBy (·.stem) pages) label with
  | [] => simp [hstems] at hboth
  | [stem] =>
    simp only [hstems, List.mem_singleton] at hboth
    exact absurd (hboth.1.trans hboth.2.symm) hne
  | _ :: _ :: _ => simp

end Merged

def Walked.carriers (page : Walked) (id : Text) : List TreeNode :=
  (blockNodes page.artifact.blocks).filter fun node => node.identifier = id

/-- What an element of a page carries is a label of the page. -/
theorem mem_labels_of_carriers {stem source : Text} {bib : Bibliography} {files : Store}
    {page : Walked} (h : (walkSource (sourceContext stem bib) source files).1 = .ok page)
    {label : Text} (hlabel : label ≠ []) (hcarries : page.carriers label ≠ []) :
    label ∈ page.artifact.record.labels := by
  obtain ⟨node, hnode⟩ := List.exists_mem_of_ne_nil _ hcarries
  obtain ⟨hmem, hid⟩ := List.mem_filter.1 hnode
  have hcovers := ((walkPage_covers Form.vocabulary stem bib source).finish (Prod.ext h rfl)).2
  rw [← of_decide_eq_true hid] at hlabel ⊢
  exact (hcovers node hmem).identifier hlabel

/-- If the merge of pages with stems of their own reports no error for a label, then of any two
pages at most one has elements that carry the label. -/
theorem unshared_label_on_one_page (bib : Bibliography) (sources : List (Text × Text))
    (pages : List Walked) (files : Store) (hstems : (sources.map Prod.fst).Nodup)
    (hpages : List.Forall₂ (fun source page =>
      (walkSource (sourceContext source.1 bib) source.2 files).1 = .ok page) sources pages)
    (label : Text) (hlabel : label ≠ [])
    (h : ∀ stems, Merged.sharedLabel label stems ∉
      (merge (pages.map (·.artifact.record))).diagnostics) :
    pages.Pairwise fun a b => a.carriers label = [] ∨ b.carriers label = [] := by
  have hstem : sources.map Prod.fst = pages.map (·.artifact.record.stem) := by
    rw [← List.forall₂_eq_eq_eq, List.forall₂_map_left_iff, List.forall₂_map_right_iff]
    refine hpages.imp fun source page hwalk => ?_
    have hfinish := (walkPage_covers Form.vocabulary source.1 bib source.2).finish
      (Prod.ext hwalk rfl)
    exact hfinish.1.symm
  have hne : pages.Pairwise fun a b => a.artifact.record.stem ≠ b.artifact.record.stem :=
    List.pairwise_map.1 (hstem ▸ hstems)
  have hrecord {page : Walked} (hpage : page ∈ pages) :
      page.artifact.record ∈ pages.map (·.artifact.record) := List.mem_map_of_mem hpage
  have hlabels {page : Walked} (hpage : page ∈ pages) (hcarries : page.carriers label ≠ []) :
      label ∈ page.artifact.record.labels := by
    obtain ⟨source, _, hwalk⟩ := exists_of_mem_right hpages hpage
    exact mem_labels_of_carriers hwalk hlabel hcarries
  refine hne.imp_of_mem fun {a b} ha hb hab => ?_
  refine or_iff_not_imp_left.2 fun hcarries => not_not.1 fun hcarries' => ?_
  obtain ⟨stems, hreported⟩ := Merged.exists_sharedLabel (hrecord ha) (hrecord hb) hab
    (hlabels ha hcarries) (hlabels hb hcarries')
  exact h stems hreported

def repeatedLabel : Text := "\\label\x7bx\x7d\n\n\\label\x7bx\x7d\n"

def repeatingSources : List (Text × Text) := [("a", repeatedLabel), ("b", "None")]

/-- No error is reported, and only one of the pages has elements with the label. -/
theorem unshared_label_on_one_page_repeatingSources :
    (repeatingSources.map Prod.fst).Nodup ∧ ∃ pages,
      List.Forall₂ (fun source page =>
        (walkSource (sourceContext source.1 ∅) source.2 .empty).1 = .ok page)
        repeatingSources pages ∧
      (∀ stems, Merged.sharedLabel "x" stems ∉
        (merge (pages.map (·.artifact.record))).diagnostics) ∧
      pages.Pairwise fun a b => a.carriers "x" = [] ∨ b.carriers "x" = [] := by
  have hstems : (repeatingSources.map Prod.fst).Nodup := by decide +kernel
  have hwalk : ((walkSource (sourceContext "a" ∅) repeatedLabel .empty).1.toOption.any fun a =>
      (walkSource (sourceContext "b" ∅) "None" .empty).1.toOption.any fun b =>
        decide (¬ b.artifact.record.stem < a.artifact.record.stem ∧
          Merged.check [a.artifact.record, b.artifact.record] = [])) = true := by
    decide +kernel
  rcases ha : (walkSource (sourceContext "a" ∅) repeatedLabel .empty).1 with e | a
  · rw [ha] at hwalk
    cases hwalk
  rcases hb : (walkSource (sourceContext "b" ∅) "None" .empty).1 with e | b
  · rw [ha, hb] at hwalk
    cases hwalk
  rw [ha, hb] at hwalk
  obtain ⟨hsorted, hquiet⟩ := of_decide_eq_true hwalk
  have hpages : List.Forall₂ (fun source page =>
      (walkSource (sourceContext source.1 ∅) source.2 .empty).1 = .ok page)
      repeatingSources [a, b] := .cons ha (.cons hb .nil)
  have hnone (stems : List Text) : Merged.sharedLabel "x" stems ∉
      (merge ([a, b].map (·.artifact.record))).diagnostics := by
    have hsort : merge ([a, b].map (·.artifact.record)) =
        .ofSorted [a.artifact.record, b.artifact.record] :=
      congrArg Merged.ofSorted (if_neg hsorted)
    rw [hsort, Merged.ofSorted, hquiet]
    exact List.not_mem_nil
  exact ⟨hstems, [a, b], hpages, hnone, unshared_label_on_one_page ∅ repeatingSources [a, b] .empty
    hstems hpages "x" (by simp) hnone⟩

/-- A label that one page defines twice is not reported. -/
theorem repeated_label_not_reported : ∃ page,
    (walkSource (sourceContext "p" ∅) repeatedLabel .empty).1 = .ok page ∧
      (merge [page.artifact.record]).diagnostics = [] ∧ 1 < (page.carriers "x").length := by
  have hwalk : (match (walkSource (sourceContext "p" ∅) repeatedLabel .empty).1 with
    | .ok page => decide ((merge [page.artifact.record]).diagnostics = [] ∧
        1 < (page.carriers "x").length)
    | .error _ => false) = true := by decide +kernel
  rcases hpage : (walkSource (sourceContext "p" ∅) repeatedLabel .empty).1 with e | page
  · rw [hpage] at hwalk
    cases hwalk
  · rw [hpage] at hwalk
    exact ⟨page, rfl, of_decide_eq_true hwalk⟩

end TexCatalog
