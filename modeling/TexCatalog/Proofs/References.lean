import TexCatalog.Proofs.TreeLinks
import TexCatalog.Proofs.CitationOrder
import TexCatalog.Proofs.RecordCoverage
import TexCatalog.Proofs.WalkLevels

/-!
# References of a page

Citations are collected three times: by the walk for the record of a page, from its tree for the
order of the references, and in the links of its body. For a page that has been walked the three
agree, so every citation on it leads to an item that shows the same label.
-/

namespace TexCatalog

open Html

namespace Html

def isItem : Html → Bool
  | .element .li _ _ => true
  | _ => false

def itemsOf (nodes : List Html) : List Html := (pieces nodes).filter isItem

section

variable {tag : Tag} {attrs : List Attribute} {content more : List Html}

@[simp] theorem itemsOf_nil : itemsOf [] = [] := by simp [itemsOf, pieces]

@[simp] theorem itemsOf_text (t : Text) : itemsOf (.text t :: more) = itemsOf more := by
  simp [itemsOf, pieces, inner, isItem]

@[simp] theorem itemsOf_newline : itemsOf (newline :: more) = itemsOf more := itemsOf_text _

@[simp] theorem itemsOf_li : itemsOf (.element .li attrs content :: more) =
    .element .li attrs content :: itemsOf content ++ itemsOf more := by
  have hitem : isItem (.element .li attrs content) = true := rfl
  simp [itemsOf, pieces, inner, hitem]

theorem itemsOf_element (htag : tag ≠ .li) :
    itemsOf (.element tag attrs content :: more) = itemsOf content ++ itemsOf more := by
  have hitem : isItem (.element tag attrs content) = false := by
    cases tag <;> first | rfl | exact absurd rfl htag
  simp [itemsOf, pieces, inner, hitem]

end

end Html

namespace Bibliography

/-- The item of a key and the text that it shows for the key: the label of the entry, in brackets in
front of the reference, or the mark that there is no entry. -/
inductive ItemShows (bib : Bibliography) (key : Text) : Text → Html → Prop
  | missing : bib.get? key = none →
    ItemShows bib key ("UNDEF:" ++ key)
      (.element .li [⟨"id", key⟩, ⟨"class", "missing"⟩] [.text ("UNDEF:" ++ key)])
  | entry {e : Entry} {label : Text} : bib.get? key = some e → displayLabel e = .ok label →
    ItemShows bib key label
      (.element .li [⟨"id", key⟩]
        (.element .span [⟨"class", "bib-label"⟩] [.text ("[" ++ label ++ "]")] :: .text " " ::
          referenceItem e))

section

variable {bib : Bibliography} {key shown : Text} {item : Html}

/-- A reference holds no list items. -/
theorem itemsOf_referenceItem (e : Entry) : itemsOf (referenceItem e) = [] := by
  have hall : AllPieces (fun piece => isItem piece = false ∧ ¬piece.IsRaw) (referenceItem e) :=
    referenceItem_all (fun _ => ⟨rfl, not_false⟩) (fun _ h => h.2 trivial)
      (fun _ _ => ⟨rfl, not_false⟩) (fun _ _ => ⟨rfl, not_false⟩) e
  rw [itemsOf, List.filter_eq_nil_iff]
  intro piece hpiece
  simp [(hall piece hpiece).1]

/-- The item of a key is one list item. -/
theorem ItemShows.itemsOf_cons (h : bib.ItemShows key shown item) (more : List Html) :
    itemsOf (item :: more) = item :: itemsOf more := by
  cases h with
  | missing => simp
  | entry => simp [itemsOf_element, itemsOf_referenceItem]

theorem Shows.unique {other : Text} (h : bib.Shows key shown) (hother : bib.Shows key other) :
    shown = other := by
  unfold Shows at h hother
  cases hget : bib.get? key with
  | none =>
    simp only [hget] at h hother
    rw [h, hother]
  | some e =>
    simp only [hget] at h hother
    exact Except.ok.inj (h.symm.trans hother)

theorem ItemShows.shows (h : bib.ItemShows key shown item) : bib.Shows key shown := by
  cases h with
  | missing hget => simp only [Shows, hget]
  | entry hget hlabel => simp only [Shows, hget, hlabel]

variable (hbib : bib.Labelled)

include hbib

theorem item_shows (key : Text) : ∃ shown item, bib.item key = .ok item ∧
    bib.ItemShows key shown item := by
  unfold item
  cases hget : bib.get? key with
  | none => exact ⟨_, _, rfl, .missing hget⟩
  | some e =>
    obtain ⟨label, hlabel⟩ := hbib key e hget
    refine ⟨label, _, ?_, .entry hget hlabel⟩
    simp only [hlabel]
    rfl

/-- There is one item for each key, in the order of the keys, and no other. -/
theorem items_show (keys : List Text) : ∃ nodes, bib.items keys = .ok nodes ∧
    List.Forall₂ (fun key item => ∃ shown, bib.ItemShows key shown item) keys (itemsOf nodes) := by
  induction keys with
  | nil => exact ⟨[], rfl, by simp⟩
  | cons key more ih =>
    obtain ⟨shown, item, hitem, hshows⟩ := item_shows hbib key
    obtain ⟨nodes, hnodes, hrest⟩ := ih
    refine ⟨item :: newline :: nodes, ?_, ?_⟩
    · simp only [items, hitem, hnodes]
      rfl
    · rw [hshows.itemsOf_cons, itemsOf_newline]
      exact .cons ⟨shown, hshows⟩ hrest

/-- The section of references is left out if there are no keys. -/
theorem section?_show (keys : List Text) : ∃ references, bib.section? keys = .ok references ∧
    List.Forall₂ (fun key item => ∃ shown, bib.ItemShows key shown item) keys
      (itemsOf references) ∧
    (keys = [] → references = []) ∧
    (keys ≠ [] → ∃ content, references =
      [.element .section [⟨"id", "references"⟩, ⟨"class", "bibliography"⟩] content, newline]) := by
  unfold section?
  by_cases hkeys : keys = []
  · subst hkeys
    exact ⟨[], rfl, by simp, fun _ => rfl, fun h => absurd rfl h⟩
  · obtain ⟨nodes, hnodes, hitems⟩ := items_show hbib keys
    rw [if_neg hkeys, hnodes]
    refine ⟨_, rfl, ?_, fun h => absurd h hkeys, fun _ => ⟨_, rfl⟩⟩
    simpa [itemsOf_element] using hitems

end

end Bibliography

/-- A link that is marked with a key leads to the item of the key and shows its label, the key is
recorded, and there is no markup in source form. -/
def Html.CitesRecorded (bib : Bibliography) (recorded : TextSet) : Html → Prop
  | .element .a attrs content => ∀ key, ⟨"data-cite", key⟩ ∈ attrs →
    attrs.head? = some ⟨"href", '#' :: key⟩ ∧ key ∈ recorded ∧
      ∃ shown, content = [.text shown] ∧ bib.Shows key shown
  | .raw _ => False
  | _ => True

/-- Attributes that carry no mark are written without one. -/
theorem Attr.Uncited.not_mem_toAttributes {attr : Attr} (h : attr.Uncited) (key : Text) :
    ⟨"data-cite", key⟩ ∉ attr.toAttributes := by
  intro hmem
  rw [toAttributes, List.mem_append, List.mem_append, List.mem_map] at hmem
  rcases hmem with (hid | hclass) | ⟨p, hp, heq⟩
  · split at hid
    · cases hid
    · simp at hid
  · split at hclass
    · cases hclass
    · simp at hclass
  · exact h p hp (congrArg Attribute.name heq)

section

variable {bib : Bibliography} {recorded : TextSet}

theorem citesRecorded_citation {key : Text} (hkey : key ∈ recorded) {shown : Text}
    (hshown : bib.Shows key shown) :
    (Html.element .a (⟨"href", '#' :: key⟩ :: Layout.titleAttribute [] ++
        ((Attr.ofClasses ["cite"]).set "data-cite" key).toAttributes)
      [.text shown]).CitesRecorded bib recorded := by
  intro other hother
  have heq : other = key := by
    simp only [Layout.titleAttribute, Attr.toAttributes, Attr.set, Attr.setPair, Attr.ofClasses]
      at hother
    simp at hother
    exact hother.2
  rw [heq]
  exact ⟨rfl, hkey, shown, rfl, hshown⟩

/-- The layout marks the links of citations and no others. -/
theorem citesRecorded_rules (ctx : LayoutContext) : Layout.Rules ctx
    (fun node => node.CitesWell bib ∧ ∀ key, node.citedKey? = some key → key ∈ recorded)
    (Html.CitesRecorded bib recorded) where
  text _ := trivial
  void _ _ := trivial
  element {tag} _ _ htag := by
    cases tag <;> trivial
  anchor _ hattrs key hkey := by
    rcases hattrs _ hkey with hname | hname <;> simp at hname
  link {attr content target} n h := by
    obtain ⟨hattr | ⟨key, shown, hcitation, hshown⟩, hrecorded⟩ := h
    · intro key hkey
      rw [List.cons_append, List.mem_cons, List.mem_append] at hkey
      rcases hkey with hhref | htitle | hpair
      · simp at hhref
      · unfold Layout.titleAttribute at htitle
        split at htitle
        · cases htitle
        · simp at htitle
      · exact absurd hpair (hattr.not_mem_toAttributes key)
    · cases hcitation
      have hcontent : (Layout.layoutInlines ctx [.text shown] n).1 = [.text shown] := by
        rw [Layout.layoutInlines, Layout.layoutInline, Layout.layoutInlines]
        rfl
      have hkey : (TreeNode.inline (citation key shown)).citedKey? = some key := by
        simp [citation, TreeNode.citedKey?, Attr.get?, Attr.set, Attr.setPair, Attr.ofClasses]
      rw [hcontent]
      exact citesRecorded_citation (hrecorded key hkey) hshown
  crossRef {attr _ _} href shown h key hkey := by
    have hattr : (attr.addClass "crossref").Uncited := by
      intro p hp
      unfold Attr.addClass at hp
      split at hp
      · exact h.1 p hp
      · exact h.1 p hp
    rcases List.mem_cons.1 hkey with hhref | hpair
    · simp at hhref
    · exact absurd hpair (hattr.not_mem_toAttributes key)
  noRaw _ h := h
  notRaw {node} h hraw := by
    unfold TreeNode.IsRawHtml at hraw
    split at hraw
    · exact h.1 hraw
    · exact h.1 hraw
    · exact hraw

end

/-- What a page with references looks like: its references, its body and its table of contents. -/
structure References (bib : Bibliography) (a : Artifact) (references body contents : List Html) :
    Prop where
  /-- The items are those of the recorded keys, in the order in which the tree first cites them. -/
  items : ∃ keys : List Text, keys.Nodup ∧ (∀ key, key ∈ keys ↔ key ∈ a.record.citations) ∧
    keys.Pairwise (Precedes ((blockNodes a.blocks).filterMap TreeNode.citedKey?)) ∧
    List.Forall₂ (fun key item => ∃ shown, bib.ItemShows key shown item) keys
      (itemsOf references)
  /-- A link that is marked as a citation leads to an item that shows what the link shows. -/
  links : ∀ attrs content key, .element .a attrs content ∈ pieces body →
    ⟨"data-cite", key⟩ ∈ attrs → attrs.head? = some ⟨"href", '#' :: key⟩ ∧
      ∃ shown, content = [.text shown] ∧ ∃ item ∈ itemsOf references, bib.ItemShows key shown item
  noRaw : ∀ t, .raw t ∉ pieces body
  absent : a.record.citations.isEmpty → references = []
  present : ¬a.record.citations.isEmpty → ∃ content, references =
    [.element .section [⟨"id", "references"⟩, ⟨"class", "bibliography"⟩] content, newline]
  contents : contents = Outline.layout
    (outline a.blocks ++ if a.record.citations.isEmpty then [] else [Outline.references])

/-- A tree that cites well, and cites only what is recorded, has fitting references. -/
theorem make_references {site : SiteContext} {a : Artifact} (hbib : site.bibliography.Labelled)
    (hcites : WellCited site.bibliography (blockNodes a.blocks))
    (hrecorded : ∀ node ∈ blockNodes a.blocks, ∀ key, node.citedKey? = some key →
      key ∈ a.record.citations) :
    ∃ references d, Document.make site a = .ok d ∧
      d.text = site.template.fill (Document.slots site a references) ∧
      References site.bibliography a references (Document.body site a).1
        (Outline.contents a.blocks (!references.isEmpty)) := by
  have hmem (key : Text) :
      key ∈ citationOrder a.blocks a.record.citations ↔ key ∈ a.record.citations := by
    rw [mem_citationOrder, or_iff_right_of_imp]
    intro hcited
    obtain ⟨node, hnode, hkey⟩ := List.mem_filterMap.1 hcited
    exact hrecorded node hnode key hkey
  have hempty : citationOrder a.blocks a.record.citations = [] ↔ a.record.citations.isEmpty := by
    rw [List.eq_nil_iff_forall_not_mem, TextSet.isEmpty, List.isEmpty_iff,
      List.eq_nil_iff_forall_not_mem]
    exact forall_congr' fun key => not_congr (hmem key)
  obtain ⟨references, hsection, hitems, habsent, hpresent⟩ :=
    Bibliography.section?_show hbib (citationOrder a.blocks a.record.citations)
  have hbody : AllPieces (Html.CitesRecorded site.bibliography a.record.citations)
      (Document.body site a).1 :=
    Document.body_all (citesRecorded_rules _) fun node hnode =>
      ⟨hcites node hnode, hrecorded node hnode⟩
  refine ⟨references, ⟨a.record.fileName, site.template.fill (Document.slots site a references),
    (Document.body site a).2⟩, ?_, rfl, ?_⟩
  · simp only [Document.make, hsection]
  · constructor
    · exact ⟨_, citationOrder_nodup .., hmem, citationOrder_precedes .., hitems⟩
    · intro attrs content key hlink hkey
      obtain ⟨hhref, hrecorded, shown, hcontent, hshown⟩ := hbody _ hlink key hkey
      obtain ⟨item, hitem, other, hother⟩ :=
        exists_of_mem_right hitems.flip ((hmem key).2 hrecorded)
      rw [hshown.unique hother.shows] at hcontent
      exact ⟨hhref, other, hcontent, item, hitem, hother⟩
    · exact fun t ht => hbody _ ht
    · exact fun h => habsent (hempty.2 h)
    · exact fun h => hpresent fun hnil => h (hempty.1 hnil)
    · unfold Outline.contents
      congr 2
      by_cases h : a.record.citations.isEmpty
      · rw [habsent (hempty.2 h), h]
        rfl
      · obtain ⟨content, rfl⟩ := hpresent fun hnil => h (hempty.1 hnil)
        rw [if_neg h]
        rfl

/-- Every page that is walked and finished with one bibliography has references that match its
citations, its links and its table of contents. -/
theorem references_match_citations (stem source : Text) (bib : Bibliography)
    (hbib : bib.Labelled) (files : Store) :
    ∃ page, walkSource (sourceContext stem bib) source files = (.ok page, files) ∧
      ∀ site : SiteContext, site.bibliography = bib →
        ∃ references d, Document.make site page.artifact = .ok d ∧
          d.text = site.template.fill (Document.slots site page.artifact references) ∧
          References bib page.artifact references (Document.body site page.artifact).1
            (Outline.contents page.artifact.blocks (!references.isEmpty)) := by
  have hwalk : walkPage Form.vocabulary (sourceContext stem bib) source =
      walkAll stem bib (Source.readBlocks (Source.clean source)) := by
    change (pure (Source.readBlocks (Source.clean source)) >>= fun blocks =>
      walkAll stem bib blocks) = _
    rw [pure_bind]
  have hsucceeds : (walkPage Form.vocabulary (sourceContext stem bib) source).Succeeds := by
    rw [hwalk]
    exact walkAll_succeeds stem hbib _
  obtain ⟨page, hpage⟩ := hsucceeds.finish stem files
  refine ⟨page, hpage, ?_⟩
  rintro site rfl
  have hcites := ((walkPage_cites stem site.bibliography source).finish hpage).2
  have hcovers := ((walkPage_covers Form.vocabulary stem site.bibliography source).finish hpage).2
  refine make_references hbib hcites fun node hnode key hkey => ?_
  have hknows := hcovers node hnode
  unfold TreeNode.citedKey? at hkey
  split at hkey
  · exact hknows.1 key hkey
  · cases hkey

/-- A page that cites two keys, of which the bibliography knows one, has references to both. -/
theorem references_match_citations_oneWork : oneWork.Labelled ∧ ∃ page,
    walkSource (sourceContext "page" oneWork)
      "See \\cite\x7bNope, Cor14\x7d and \\cite\x7bNope\x7d." .empty = (.ok page, .empty) ∧
    page.artifact.record.citations.items = ["Cor14", "Nope"] ∧
    ∀ site : SiteContext, site.bibliography = oneWork →
      ∃ references d, Document.make site page.artifact = .ok d ∧
        References oneWork page.artifact references (Document.body site page.artifact).1
          (Outline.contents page.artifact.blocks (!references.isEmpty)) := by
  obtain ⟨page, hpage, hmatch⟩ := references_match_citations "page"
    "See \\cite\x7bNope, Cor14\x7d and \\cite\x7bNope\x7d." oneWork oneWork_labelled .empty
  refine ⟨oneWork_labelled, page, hpage, ?_, fun site hsite => ?_⟩
  · have hcited : (match (walkSource (sourceContext "page" oneWork)
        "See \\cite\x7bNope, Cor14\x7d and \\cite\x7bNope\x7d." .empty).1 with
      | .ok page => decide (page.artifact.record.citations.items = ["Cor14", "Nope"])
      | .error _ => false) = true := by decide +kernel
    rw [hpage] at hcited
    exact of_decide_eq_true hcited
  · obtain ⟨references, d, hd, _, hreferences⟩ := hmatch site hsite
    exact ⟨references, d, hd, hreferences⟩

end TexCatalog
