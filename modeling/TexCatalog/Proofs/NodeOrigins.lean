import TexCatalog.Proofs.WalkLabels
import TexCatalog.Proofs.WalkLevels

/-!
# Where the nodes of a page come from

The links, the references and the raw nodes in the tree of a page, each with the reader or the form
that makes it. The forms are given only pieces of the source of the page, so what is made of a match
is made of such a piece.
-/

namespace TexCatalog

open Walk

/-- The text under which a key is cited: the label of its entry, or a mark that there is none. -/
def Bibliography.Shows (bib : Bibliography) (key shown : Text) : Prop :=
  match bib.get? key with
  | none => shown = "UNDEF:" ++ key
  | some entry => displayLabel entry = .ok shown

def citation (key shown : Text) : Inline :=
  .link ((Attr.ofClasses ["cite"]).set "data-cite" key) [.text shown] ⟨'#' :: key, []⟩

/-- The nodes of a citation are those of its note, texts, the links, and the texts in them. -/
theorem forall_mem_citation {P : TreeNode → Prop} {attr : Attr} {front links : List Inline}
    (hspan : ∀ content, P (.inline (.span attr content))) (htext : ∀ t, P (.inline (.text t)))
    (hfront : ∀ node ∈ inlineNodes front, P node)
    (hlinks : ∀ link ∈ links, ∃ key shown, link = citation key shown ∧ P (.inline link)) :
    ∀ node ∈ inlineNodes [.span attr
      (.text "[" :: front ++ links.intersperse (.text ", ") ++ [.text "]"])], P node := by
  have hrow : ∀ node ∈ inlineNodes (links.intersperse (.text ", ")), P node := by
    refine forall_mem_inlineNodes.2 fun node hnode => ?_
    rcases mem_intersperse hnode with rfl | hnode
    · simp [Inline.inner, htext]
    · obtain ⟨key, shown, rfl, hlink⟩ := hlinks node hnode
      refine List.forall_mem_cons.2 ⟨hlink, ?_⟩
      simp [citation, inlineNodes, Inline.inner, htext]
  have hopen : ∀ node ∈ inlineNodes (.text "[" :: front), P node :=
    List.forall_mem_cons.2 ⟨htext _, hfront⟩
  have hclose : ∀ node ∈ inlineNodes [.text "]"], P node :=
    List.forall_mem_cons.2 ⟨htext _, List.forall_mem_nil _⟩
  rw [inlineNodes, inlineNodes, List.append_nil, List.forall_mem_cons, Inline.inner,
    inlineNodes_append, inlineNodes_append, List.forall_mem_append, List.forall_mem_append]
  exact ⟨hspan _, ⟨hopen, hrow⟩, hclose⟩

def Target.IsInternal (target : Target) : Prop := ∃ label, label ≠ [] ∧ target.url = '#' :: label

def Form.fileLinkPattern : Pattern := (Pattern.command ["filelink"]).withArgs 2

/-- What a link is made of: a link of the reader or of a form that leads away from the site, a link
to a file, or a citation. -/
inductive LinkOrigin (bib : Bibliography) (texts : Text → Prop) : Inline → Prop
  | away {attr : Attr} {target : Target} (content : List Inline) : attr.pairs = [] →
    ¬target.IsInternal → LinkOrigin bib texts (.link attr content target)
  | file {text : Text} {inv : Invocation} (content : List Inline) : texts text →
    Form.fileLinkPattern.match? text = some inv →
    LinkOrigin bib texts (.link .empty content ⟨inv.arg 0, []⟩)
  | citation {key shown : Text} : bib.Shows key shown → LinkOrigin bib texts (citation key shown)

/-- What a raw node is made of: page source that no form has expanded, or the match of a pattern for
tables. -/
inductive RawOrigin (tables : Pattern → Prop) (texts : Text → Prop) : Format → Text → Prop
  | tex {format : Format} {text : Text} : format.isTex → texts text →
    RawOrigin tables texts format text
  | table {p : Pattern} {text : Text} {inv : Invocation} : tables p → texts text →
    p.match? text = some inv → RawOrigin tables texts .table inv.source

/-- Links and raw nodes have an origin among the texts, and a reference says nothing of itself but
its title. There are no notes, and nothing stands in a block that is filled in from the data of the
site. -/
def TreeNode.HasOrigin (bib : Bibliography) (texts : Text → Prop) : TreeNode → Prop
  | .inline (.link attr content target) => LinkOrigin bib texts (.link attr content target)
  | .inline (.crossRef attr _ _) => ∀ p ∈ attr.pairs, p.1 = ("title" : Text)
  | .inline (.raw format text) =>
    RawOrigin (fun p => ⟨p, Form.inlineTable⟩ ∈ Form.inlineForms) texts format text
  | .block (.raw format text) =>
    RawOrigin (fun p => ⟨p, Form.table⟩ ∈ Form.blockForms) texts format text
  | .inline (.note _) => False
  | .block (.div attr content) => attr.isSpecial = true → content = []
  | _ => True

def HaveOrigins (bib : Bibliography) (texts : Text → Prop) (nodes : List TreeNode) : Prop :=
  ∀ node ∈ nodes, node.HasOrigin bib texts

section

variable {bib : Bibliography} {texts : Text → Prop} {node : TreeNode} {nodes more : List TreeNode}

@[simp] theorem haveOrigins_nil : HaveOrigins bib texts [] := by simp [HaveOrigins]

@[simp] theorem haveOrigins_cons : HaveOrigins bib texts (node :: nodes) ↔
    node.HasOrigin bib texts ∧ HaveOrigins bib texts nodes := by simp [HaveOrigins]

@[simp] theorem haveOrigins_append : HaveOrigins bib texts (nodes ++ more) ↔
    HaveOrigins bib texts nodes ∧ HaveOrigins bib texts more := by
  simp only [HaveOrigins, List.mem_append, or_imp, forall_and]

end

def InlinesHaveOrigins (bib : Bibliography) (texts : Text → Prop) (nodes : List Inline)
    (_ : Notes) : Prop :=
  HaveOrigins bib texts (inlineNodes nodes)

def BlocksHaveOrigins (bib : Bibliography) (texts : Text → Prop) (blocks : List Block)
    (_ : Notes) : Prop :=
  HaveOrigins bib texts (blockNodes blocks)

def ItemsHaveOrigins (bib : Bibliography) (texts : Text → Prop) (items : List (List Block))
    (_ : Notes) : Prop :=
  HaveOrigins bib texts (itemNodes items)

section

variable (bib : Bibliography) (texts : Text → Prop)

/-- A link of the reader leads away from the site or becomes a reference. -/
theorem resolveLink_haveOrigins {attr : Attr} {content : List Inline} {target : Target}
    (hpairs : attr.pairs = []) (hcontent : HaveOrigins bib texts (inlineNodes content)) :
    HaveOrigins bib texts (inlineNodes [resolveLink attr content target]) := by
  have haway (h : ¬target.IsInternal) :
      HaveOrigins bib texts (inlineNodes [.link attr content target]) := by
    have hlink : LinkOrigin bib texts (.link attr content target) := .away content hpairs h
    simp [inlineNodes, Inline.inner, TreeNode.HasOrigin, hlink, hcontent]
  have hreference {attr : Attr} (label : Text) (h : ∀ p ∈ attr.pairs, p.1 = ("title" : Text)) :
      HaveOrigins bib texts (inlineNodes [.crossRef attr content label]) := by
    simp only [inlineNodes, Inline.inner, haveOrigins_append, haveOrigins_cons]
    exact ⟨⟨h, hcontent⟩, haveOrigins_nil⟩
  unfold resolveLink
  split
  · next c label hurl =>
    have hnone : (attr.get? "data-cite").isNone := by simp [Attr.get?, hpairs]
    rw [if_pos hnone]
    refine hreference _ ?_
    split
    · simp [hpairs]
    · simp [Attr.set, hpairs, Attr.setPair]
  · next hurl =>
    refine haway ?_
    rintro ⟨label, hlabel, htarget⟩
    obtain ⟨c, label, rfl⟩ := List.exists_cons_of_ne_nil hlabel
    exact hurl c label htarget

theorem origins_sourceRules : SourceRules (InlinesHaveOrigins bib texts)
    (BlocksHaveOrigins bib texts) (ItemsHaveOrigins bib texts) (fun text _ => texts text) where
  noInlines := haveOrigins_nil
  moreInlines ha hb := by
    unfold InlinesHaveOrigins
    rw [inlineNodes_append, haveOrigins_append]
    exact ⟨ha, hb⟩
  inlineLeaf {node} hsource hleaf := by
    cases node <;> first
      | exact hleaf.elim
      | simp [InlinesHaveOrigins, inlineNodes, Inline.inner, TreeNode.HasOrigin]
    rw [TreeNode.IsSource] at hsource
    subst hsource
    exact absurd Format.isTex_tex hleaf
  unrecognized stem htex htext := by
    simp only [InlinesHaveOrigins, inlineNodes, Inline.inner, haveOrigins_append, haveOrigins_cons]
    exact ⟨⟨.tex htex htext, haveOrigins_nil⟩, haveOrigins_nil⟩
  styled _ h := by
    simpa [InlinesHaveOrigins, inlineNodes, Inline.inner, TreeNode.HasOrigin] using h
  quoted h _ := h.elim
  link hpairs h := resolveLink_haveOrigins bib texts hpairs h
  image h _ := h.elim
  span h _ := h.elim
  crossRef h _ := h.elim
  note h _ := h.elim
  noBlocks := haveOrigins_nil
  moreBlocks ha hb := by
    unfold BlocksHaveOrigins
    rw [blockNodes_append, haveOrigins_append]
    exact ⟨ha, hb⟩
  blockLeaf {block} hsource hleaf := by
    cases block <;> first
      | exact hleaf.elim
      | simp [BlocksHaveOrigins, blockNodes, Block.inner, TreeNode.HasOrigin]
    rw [TreeNode.IsSource] at hsource
    subst hsource
    exact absurd Format.isTex_tex hleaf
  para h := by
    simpa [InlinesHaveOrigins, BlocksHaveOrigins, blockNodes, Block.inner, TreeNode.HasOrigin]
      using h
  plain h _ := h.elim
  header _ _ h := by
    simpa [InlinesHaveOrigins, BlocksHaveOrigins, blockNodes, Block.inner, TreeNode.HasOrigin]
      using h
  quote h _ := h.elim
  div h _ := h.elim
  noItems := haveOrigins_nil
  moreItems ha hb := by
    unfold ItemsHaveOrigins
    rw [itemNodes, haveOrigins_append]
    exact ⟨ha, hb⟩
  bullets h := by
    simpa [ItemsHaveOrigins, BlocksHaveOrigins, blockNodes, Block.inner, TreeNode.HasOrigin] using h
  numbered _ h := by
    simpa [ItemsHaveOrigins, BlocksHaveOrigins, blockNodes, Block.inner, TreeNode.HasOrigin] using h

theorem origins_expansionRules : ExpansionRules (InlinesHaveOrigins bib texts)
    (BlocksHaveOrigins bib texts) (InlinesHaveOrigins bib texts) (BlocksHaveOrigins bib texts)
    (fun text _ => texts text) (fun _ _ => True) where
  observedInlines h := h
  observedBlocks h := h
  behind _ h := h
  emptied h := h
  paragraph h := by
    simpa [InlinesHaveOrigins, BlocksHaveOrigins, blockNodes, Block.inner, TreeNode.HasOrigin]
      using h
  unexpanded _ _ htext := by
    simp only [BlocksHaveOrigins, blockNodes, Block.inner, haveOrigins_append, haveOrigins_cons]
    exact ⟨⟨.tex Format.isTex_tex htext, haveOrigins_nil⟩, haveOrigins_nil⟩

/-- A context with a bibliography, of which the nodes of all answers have an origin. -/
structure FormContext.Sourced (c : FormContext) : Prop where
  bibliography : c.bibliography = bib
  blocks (text : Text) : (c.blocks text).Ensures (BlocksHaveOrigins bib texts)
  inlines (text : Text) : (c.inlines text).Ensures (InlinesHaveOrigins bib texts)

end

namespace Form

section

variable {bib : Bibliography} {texts : Text → Prop} {c : FormContext} (hc : c.Sourced bib texts)
  (inv : Invocation)

def BuildsInlines (bib : Bibliography) (texts : Text → Prop) :
    Option (List Inline) → Notes → Prop :=
  Made (InlinesHaveOrigins bib texts) fun _ => True

def BuildsBlocks (bib : Bibliography) (texts : Text → Prop) : Option (List Block) → Notes → Prop :=
  Made (BlocksHaveOrigins bib texts) fun _ => True

theorem builds_inlines {nodes : List Inline} (h : HaveOrigins bib texts (inlineNodes nodes)) :
    Ensures (Pure.pure (some nodes)) (BuildsInlines bib texts) := by
  apply ensures_pure
  exact h

theorem builds_blocks {blocks : List Block} (h : HaveOrigins bib texts (blockNodes blocks)) :
    Ensures (Pure.pure (some blocks)) (BuildsBlocks bib texts) := by
  apply ensures_pure
  exact h

theorem builds_none {Kind : Type} {P : List Kind → Notes → Prop} :
    Ensures (Pure.pure none) (Made P fun _ => True) := by
  apply ensures_pure
  trivial

/-- What is built does not depend on the step in front of it. -/
theorem ensures_bind_any {α Kind : Type} {P : List Kind → Notes → Prop} {x : Walk α}
    {nodes : α → List Kind} (h : ∀ a n, P (nodes a) n) :
    (x >>= fun a => Pure.pure (some (nodes a))).Ensures (Made P fun _ => True) :=
  ensures_bind_pure (ensures_any x) fun a n _ => h a n

theorem icon_builds : (icon c inv).Ensures (BuildsInlines bib texts) := by
  apply builds_inlines
  simp [inlineNodes, Inline.inner, TreeNode.HasOrigin]

theorem includeImage_builds : (includeImage c inv).Ensures (BuildsInlines bib texts) := by
  unfold includeImage
  split
  · exact builds_none
  · apply builds_inlines
    simp [inlineNodes, Inline.inner, TreeNode.HasOrigin]

theorem oeis_builds : (oeis c inv).Ensures (BuildsInlines bib texts) := by
  have haway : ¬Target.IsInternal ⟨"https://oeis.org/" ++ inv.arg 0, oeisTitle⟩ := by
    rintro ⟨label, _, hurl⟩
    simp at hurl
  have hlink : LinkOrigin bib texts (.link .empty [.text (inv.arg 0)]
      ⟨"https://oeis.org/" ++ inv.arg 0, oeisTitle⟩) := .away _ rfl haway
  apply builds_inlines
  simp only [inlineNodes, Inline.inner, haveOrigins_append, haveOrigins_cons]
  exact ⟨⟨hlink, ⟨trivial, haveOrigins_nil⟩, haveOrigins_nil⟩, haveOrigins_nil⟩

theorem reference_builds : (reference c inv).Ensures (BuildsInlines bib texts) := by
  unfold reference
  split
  · exact builds_none
  · apply builds_inlines
    simp [inlineNodes, Inline.inner, TreeNode.HasOrigin, Attr.empty]

theorem label_builds : (label c inv).Ensures (BuildsInlines bib texts) := by
  unfold label
  split
  · exact builds_none
  · apply builds_inlines
    simp [inlineNodes, Inline.inner, TreeNode.HasOrigin]

theorem inlineSpace_builds : (inlineSpace c inv).Ensures (BuildsInlines bib texts) :=
  ensures_bind_any fun _ _ => by
    simp [InlinesHaveOrigins, classed, inlineNodes, Inline.inner, TreeNode.HasOrigin]

theorem inlineTable_builds
    (htable : RawOrigin (fun p => ⟨p, inlineTable⟩ ∈ inlineForms) texts .table inv.source) :
    (inlineTable c inv).Ensures (BuildsInlines bib texts) :=
  ensures_bind_any fun _ _ => by
    simp [InlinesHaveOrigins, classed, inlineNodes, Inline.inner, TreeNode.HasOrigin, htable]

theorem todo_builds : (todo c inv).Ensures (BuildsInlines bib texts) :=
  ensures_bind_any fun _ _ => haveOrigins_nil

theorem blockSpace_builds : (blockSpace c inv).Ensures (BuildsBlocks bib texts) := by
  apply builds_blocks
  simp [blockNodes, Block.inner, TreeNode.HasOrigin]

theorem pageMeta_builds : (pageMeta c inv).Ensures (BuildsBlocks bib texts) :=
  ensures_bind (ensures_any _) fun _ _ _ => ensures_bind_any fun _ _ => haveOrigins_nil

theorem styleRules_builds : (styleRules c inv).Ensures (BuildsBlocks bib texts) :=
  ensures_bind_any fun _ _ => haveOrigins_nil

theorem specialBlock_builds : (specialBlock c inv).Ensures (BuildsBlocks bib texts) := by
  unfold specialBlock
  split
  · apply builds_blocks
    simp [blockNodes, Block.inner, TreeNode.HasOrigin]
  · exact builds_none

theorem polydata_builds : (polydata c inv).Ensures (BuildsBlocks bib texts) := by
  unfold polydata
  split
  · exact builds_none
  · exact ensures_bind_any fun _ _ => haveOrigins_nil

theorem table_builds
    (htable : RawOrigin (fun p => ⟨p, table⟩ ∈ blockForms) texts .table inv.source) :
    (table c inv).Ensures (BuildsBlocks bib texts) := by
  apply builds_blocks
  simp [blockNodes, Block.inner, TreeNode.HasOrigin, htable]

include hc

theorem defin_builds : (defin c inv).Ensures (BuildsInlines bib texts) :=
  ensures_bind_pure (hc.inlines _) fun _ _ hn => by
    simpa [BuildsInlines, Made, InlinesHaveOrigins, classed, inlineNodes, Inline.inner,
      TreeNode.HasOrigin] using hn

theorem fileLink_builds
    (hlink : ∀ content, LinkOrigin bib texts (.link .empty content ⟨inv.arg 0, []⟩)) :
    (fileLink c inv).Ensures (BuildsInlines bib texts) :=
  ensures_bind_pure (hc.inlines _) fun _ _ hn => by
    simpa [BuildsInlines, Made, InlinesHaveOrigins, inlineNodes, Inline.inner, TreeNode.HasOrigin,
      hlink] using hn

theorem hyperref_builds : (hyperref c inv).Ensures (BuildsInlines bib texts) := by
  unfold hyperref
  simp only
  split
  · exact builds_none
  · refine ensures_bind_pure (hc.inlines _) fun _ _ hn => ?_
    simpa [BuildsInlines, Made, InlinesHaveOrigins, inlineNodes, Inline.inner, TreeNode.HasOrigin,
      Attr.empty] using hn

theorem enquote_builds : (enquote c inv).Ensures (BuildsInlines bib texts) :=
  ensures_bind_pure (hc.inlines _) fun _ _ hn => by
    simpa [BuildsInlines, Made, InlinesHaveOrigins, inlineNodes, Inline.inner, TreeNode.HasOrigin]
      using hn

/-- A citation shows the label of its entry or marks that there is none. -/
theorem citeText_shows (key : Text) :
    (citeText c key).Ensures fun shown _ => bib.Shows key shown := by
  unfold citeText Bibliography.Shows
  rw [hc.bibliography]
  cases bib.get? key with
  | some entry => exact ensures_ofExcept fun _ hlabel => hlabel
  | none => exact ensures_bind_pure (ensures_any _) fun _ _ _ => rfl

theorem citeLinks_show (keys : List Text) : (citeLinks c keys).Ensures fun links _ =>
    ∀ link ∈ links, ∃ key shown, link = citation key shown ∧ bib.Shows key shown := by
  induction keys with
  | nil => exact ensures_pure (by simp)
  | cons key more ih =>
    have hlink : (citeLink c key).Ensures fun link _ =>
        ∃ key shown, link = citation key shown ∧ bib.Shows key shown := by
      refine ensures_bind (citeText_shows hc key) fun shown _ hshown => ?_
      exact ensures_bind_pure (ensures_any _) fun _ _ _ => ⟨key, shown, rfl, hshown⟩
    refine ensures_bind hlink fun link _ hlink => ?_
    exact ensures_bind_pure ih fun links _ hlinks => List.forall_mem_cons.2 ⟨hlink, hlinks⟩

theorem citeNote_origins (optional : Option Text) :
    (citeNote c optional).Ensures (InlinesHaveOrigins bib texts) := by
  unfold citeNote
  simp only
  split
  · exact ensures_pure haveOrigins_nil
  · refine ensures_bind_pure (hc.inlines _) fun content _ hn => ?_
    have hn : HaveOrigins bib texts (inlineNodes content) := hn
    simp [InlinesHaveOrigins, inlineNodes, Inline.inner, TreeNode.HasOrigin, hn]

theorem cite_builds : (cite c inv).Ensures (BuildsInlines bib texts) := by
  unfold cite
  simp only
  split
  · exact builds_none
  · refine ensures_bind (citeNote_origins hc _) fun note _ hnote => ?_
    refine ensures_bind_pure (citeLinks_show hc _) fun links _ hlinks => ?_
    refine forall_mem_citation (fun _ => trivial) (fun _ => trivial) hnote fun link hlink => ?_
    obtain ⟨key, shown, rfl, hshown⟩ := hlinks link hlink
    exact ⟨key, shown, rfl, .citation hshown⟩

theorem topicCard_builds : (topicCard c inv).Ensures (BuildsInlines bib texts) := by
  unfold topicCard
  simp only
  split
  · exact builds_none
  · refine ensures_bind (hc.inlines _) fun title _ htitle => ?_
    refine ensures_bind_pure (ensures_any _) fun description _ _ => ?_
    have htitle : HaveOrigins bib texts (inlineNodes title) := htitle
    simp [BuildsInlines, Made, InlinesHaveOrigins, card, classed, inlineNodes, Inline.inner,
      TreeNode.HasOrigin, Attr.set, Attr.setPair, Attr.ofClasses, htitle]

theorem blockQuote_builds : (blockQuote c inv).Ensures (BuildsBlocks bib texts) :=
  ensures_bind_pure (hc.blocks _) fun _ _ hn => by
    simpa [BuildsBlocks, Made, BlocksHaveOrigins, blockNodes, Block.inner, TreeNode.HasOrigin]
      using hn

theorem boxTitle_origins (optional : Option Text) :
    (boxTitle c optional).Ensures (InlinesHaveOrigins bib texts) := by
  unfold boxTitle
  simp only
  split
  · exact ensures_pure haveOrigins_nil
  · refine ensures_bind_pure (hc.inlines _) fun content _ hn => ?_
    have hn : HaveOrigins bib texts (inlineNodes content) := hn
    simp [InlinesHaveOrigins, inlineNodes, Inline.inner, TreeNode.HasOrigin, hn]

theorem theoremBox_builds (hname : inv.name ∈ theoremNames) :
    (theoremBox c inv).Ensures (BuildsBlocks bib texts) := by
  have hspecial := isSpecial_box hname inv.starred
  refine ensures_bind (boxTitle_origins hc _) fun title _ htitle => ?_
  refine ensures_bind_pure (hc.blocks _) fun content _ hcontent => ?_
  have htitle : HaveOrigins bib texts (inlineNodes title) := htitle
  have hcontent : HaveOrigins bib texts (blockNodes content) := hcontent
  simp only [BuildsBlocks, Made, BlocksHaveOrigins, blockNodes, Block.inner, TreeNode.HasOrigin,
    haveOrigins_append, haveOrigins_cons, hspecial]
  simp [inlineNodes, Inline.inner, TreeNode.HasOrigin, htitle, hcontent]

theorem family_builds : (family c inv).Ensures (BuildsBlocks bib texts) := by
  unfold family
  simp only
  split
  · exact builds_none
  · refine ensures_bind (hc.inlines _) fun title _ htitle => ?_
    have htitle : HaveOrigins bib texts (inlineNodes title) := htitle
    exact ensures_bind_any fun _ _ => by
      simp [BlocksHaveOrigins, blockNodes, Block.inner, TreeNode.HasOrigin, htitle]

theorem figure_builds : (figure c inv).Ensures (BuildsBlocks bib texts) := by
  have hspecial : (Attr.ofClasses ["figure"]).isSpecial = false := by cbv
  refine ensures_bind_pure (hc.blocks _) fun content _ hn => ?_
  have hn : HaveOrigins bib texts (blockNodes content) := hn
  simp only [BuildsBlocks, Made, BlocksHaveOrigins, blockNodes, Block.inner, TreeNode.HasOrigin,
    haveOrigins_append, haveOrigins_cons, hspecial]
  simp [hn]

theorem topicSection_builds : (topicSection c inv).Ensures (BuildsBlocks bib texts) := by
  refine ensures_bind (hc.inlines _) fun title _ htitle => ?_
  refine ensures_bind_pure (hc.blocks _) fun cards _ hcards => ?_
  have htitle : HaveOrigins bib texts (inlineNodes title) := htitle
  have hcards : HaveOrigins bib texts (blockNodes cards) := hcards
  have hspecial : (Attr.ofClasses ["topic-card-grid"]).isSpecial = false := by cbv
  simp only [BuildsBlocks, Made, BlocksHaveOrigins, blockNodes, Block.inner, TreeNode.HasOrigin,
    haveOrigins_append, haveOrigins_cons, hspecial]
  simp [htitle, hcards]

variable {text : Text} {inv : Invocation} (ht : texts text)

include ht

theorem inlineForms_build {form : Form Inline} (hform : form ∈ inlineForms)
    (hmatch : form.pattern.match? text = some inv) :
    (form.expand c inv).Ensures (BuildsInlines bib texts) := by
  have hmem := hform
  simp only [inlineForms, List.mem_cons, List.not_mem_nil, or_false] at hform
  rcases hform with rfl | rfl | rfl | rfl | rfl | rfl | rfl | rfl | rfl | rfl | rfl | rfl | rfl |
    rfl
  · exact defin_builds hc inv
  · exact icon_builds (c := c) inv
  · exact includeImage_builds (c := c) inv
  · exact oeis_builds (c := c) inv
  · exact fileLink_builds hc inv fun content => .file content ht hmatch
  · exact hyperref_builds hc inv
  · exact reference_builds (c := c) inv
  · exact label_builds (c := c) inv
  · exact enquote_builds hc inv
  · exact cite_builds hc inv
  · exact inlineSpace_builds inv
  · exact inlineTable_builds inv (.table hmem ht hmatch)
  · exact topicCard_builds hc inv
  · exact todo_builds (c := c) inv

theorem blockForms_build {form : Form Block} (hform : form ∈ blockForms)
    (hmatch : form.pattern.match? text = some inv) :
    (form.expand c inv).Ensures (BuildsBlocks bib texts) := by
  have hmem := hform
  simp only [blockForms, List.mem_cons, List.not_mem_nil, or_false] at hform
  rcases hform with rfl | rfl | rfl | rfl | rfl | rfl | rfl | rfl | rfl | rfl | rfl | rfl | rfl
  · exact blockSpace_builds (c := c) inv
  · exact pageMeta_builds inv
  · exact styleRules_builds (c := c) inv
  · exact specialBlock_builds (c := c) inv
  · exact blockQuote_builds hc inv
  · exact theoremBox_builds hc inv (Pattern.match?_name hmatch)
  · exact family_builds hc inv
  · exact polydata_builds (c := c) inv
  · exact figure_builds hc inv
  · exact topicSection_builds hc inv
  · exact table_builds (c := c) inv (.table hmem ht hmatch)
  · exact table_builds (c := c) inv (.table hmem ht hmatch)
  · exact table_builds (c := c) inv (.table hmem ht hmatch)

end

/-- What the first of several forms builds satisfies a condition if what any of them builds of the
text does. -/
theorem expandFirst_builds {Kind : Type} {P : List Kind → Notes → Prop} {declined : Prop}
    {c : FormContext} {text : Text} {forms : List (Form Kind)} (hdeclined : declined)
    (hP : ∀ (nodes : List Kind) (m n : Notes), P nodes n → P nodes (m.combine n))
    (hforms : ∀ form ∈ forms, ∀ inv, form.pattern.match? text = some inv →
      (form.expand c inv).Ensures (Made P fun _ => True)) :
    (expandFirst c text forms).Ensures (Made P fun _ => declined) := by
  induction forms with
  | nil => exact ensures_pure hdeclined
  | cons form more ih =>
    have ih := ih fun form hform => hforms form (List.mem_cons_of_mem _ hform)
    unfold expandFirst
    split
    · exact ih
    · next inv hmatch =>
      refine ensures_bind (hforms form (List.mem_cons_self ..) inv hmatch) fun nodes? m hm => ?_
      cases nodes? with
      | none =>
        refine ih.mono fun nodes? n hn => ?_
        cases nodes? with
        | none => exact hdeclined
        | some nodes => exact hP nodes m n hn
      | some nodes =>
        apply ensures_pure
        rw [Notes.combine_empty]
        exact hm

end Form

/-- All nodes in the tree of a page have an origin among the pieces of its source. -/
theorem walkPage_origins (stem : Text) (bib : Bibliography) (source : Text) :
    (walkPage Form.vocabulary (sourceContext stem bib) source).Ensures
      (BlocksHaveOrigins bib (· <:+: Source.clean source)) := by
  refine walkPage_ensures_of_pieces haveOrigins_nil haveOrigins_nil (origins_sourceRules bib _)
    (full_makesOf haveOrigins_nil haveOrigins_nil (fun _ _ hs ht => hs.trans ht)
      (origins_expansionRules bib _) fun inner hinner text ht => ?_)
  have hc : (Expander.formContext (sourceContext stem bib) inner).Sourced bib
      (· <:+: Source.clean source) :=
    ⟨rfl, formContext_blocks_ensures (origins_sourceRules bib _) (fun _ h => h) hinner,
      formContext_inlines_ensures (origins_sourceRules bib _) (fun _ h => h) hinner⟩
  constructor
  · exact Form.expandFirst_builds ht (fun _ _ _ h => h) fun form hform inv hmatch =>
      Form.inlineForms_build hc ht hform hmatch
  · exact Form.expandFirst_builds trivial (fun _ _ _ h => h) fun form hform inv hmatch =>
      Form.blockForms_build hc ht hform hmatch

end TexCatalog
