import TexCatalog.Proofs.CitationOrder
import TexCatalog.Proofs.Enclosures
import TexCatalog.Proofs.FormOrder
import TexCatalog.Proofs.NodeOrigins

/-!
# The keys that a walk cites

A walk cites keys one after the other, in the notes of citations and in arguments of all kinds. Each
of them is noted, every occurrence of one that the bibliography does not have is an error, and there
are no other errors.
-/

namespace TexCatalog

open Findings Walk

def undefinedKey (stem key : Text) : Diagnostic := ⟨.error, stem, "undefined citation key " ++ key⟩

def Bibliography.undefined (bib : Bibliography) (keys : List Text) : List Text :=
  keys.filter fun key => !bib.contains key

theorem Bibliography.undefined_append (bib : Bibliography) (keys more : List Text) :
    bib.undefined (keys ++ more) = bib.undefined keys ++ bib.undefined more := List.filter_append ..

def Bibliography.Links (bib : Bibliography) (keys : List Text) (links : List Inline) : Prop :=
  List.Forall₂ (fun key link => ∃ shown, bib.Shows key shown ∧ link = citation key shown) keys links

/-- The keys are cited in this order: they are what is noted as cited, and the errors are theirs. -/
structure Notes.Cites (stem : Text) (bib : Bibliography) (keys : List Text) (n : Notes) : Prop where
  noted (key : Text) : key ∈ n.findings.citations ↔ key ∈ keys
  errors : n.diagnostics.errors = (bib.undefined keys).map (undefinedKey stem)

namespace Notes

variable {stem : Text} {bib : Bibliography} {keys more : List Text} {m n : Notes} {f : Findings}

theorem Cites.combine (hm : m.Cites stem bib keys) (hn : n.Cites stem bib more) :
    (m.combine n).Cites stem bib (keys ++ more) where
  noted key := by
    rw [combine_findings, mem_citations_combine, hm.noted, hn.noted, List.mem_append]
  errors := by
    change Diagnostics.errors (m.diagnostics ++ n.diagnostics) = _
    rw [Bibliography.undefined_append, List.map_append, ← hm.errors, ← hn.errors]
    exact List.filter_append ..

theorem cites_nil (hcitations : n.findings.citations = ∅) (herrors : n.diagnostics.errors = []) :
    n.Cites stem bib [] where
  noted key := by simp [hcitations]
  errors := herrors

theorem cites_empty : Cites stem bib [] {} := cites_nil rfl rfl

theorem cites_warning (page message : Text) :
    Cites stem bib [] { diagnostics := [⟨.warning, page, message⟩] } := cites_nil rfl rfl

theorem cites_findings (hf : f.citations = ∅) : Cites stem bib [] { findings := f } :=
  cites_nil hf rfl

/-- Noting keys once more changes nothing. -/
theorem Cites.noted_again (h : n.Cites stem bib keys)
    (hf : ∀ key ∈ f.citations, key ∈ n.findings.citations) :
    (n.combine { findings := f }).Cites stem bib keys where
  noted key := by
    rw [combine_findings, mem_citations_combine, h.noted, or_iff_left_iff_imp]
    exact fun hkey => (h.noted key).1 (hf key hkey)
  errors := by
    change Diagnostics.errors (n.diagnostics ++ []) = _
    rw [List.append_nil, h.errors]

end Notes

def citeNotes (stem : Text) (bib : Bibliography) (keys : List Text) : Notes where
  findings := { citations := .ofList keys }
  diagnostics := (bib.undefined keys).map (undefinedKey stem)

theorem TextSet.mem_ofList {keys : List Text} {key : Text} : key ∈ ofList keys ↔ key ∈ keys := by
  rw [ofList, mem_foldl_insert]
  simp

section

variable (stem : Text) (bib : Bibliography)

theorem citeNotes_cons (key : Text) (more : List Text) : citeNotes stem bib (key :: more) =
    (citeNotes stem bib [key]).combine (citeNotes stem bib more) := by
  have hcitations : TextSet.ofList (key :: more) = (TextSet.ofList [key]).union (.ofList more) := by
    apply TextSet.ext_mem
    intro t
    simp only [TextSet.mem_union, TextSet.mem_ofList, List.mem_cons, List.not_mem_nil, or_false]
  have hundefined : bib.undefined (key :: more) = bib.undefined [key] ++ bib.undefined more :=
    bib.undefined_append [key] more
  rw [citeNotes, hcitations, hundefined, List.map_append]
  rfl

theorem citeNotes_cites (keys : List Text) : (citeNotes stem bib keys).Cites stem bib keys where
  noted _ := TextSet.mem_ofList
  errors := by
    apply List.filter_eq_self.2
    intro d hd
    obtain ⟨key, _, rfl⟩ := List.mem_map.1 hd
    rfl

end

def CitesWithin (keys : TextSet) (nodes : List TreeNode) : Prop :=
  ∀ node ∈ nodes, ∀ key ∈ node.citedKey?, key ∈ keys

section

variable {keys more : TextSet} {node : TreeNode} {nodes others : List TreeNode}

@[simp] theorem citesWithin_nil : CitesWithin keys [] := by simp [CitesWithin]

@[simp] theorem citesWithin_cons : CitesWithin keys (node :: nodes) ↔
    (∀ key ∈ node.citedKey?, key ∈ keys) ∧ CitesWithin keys nodes := by simp [CitesWithin]

@[simp] theorem citesWithin_append : CitesWithin keys (nodes ++ others) ↔
    CitesWithin keys nodes ∧ CitesWithin keys others := by
  simp only [CitesWithin, List.mem_append, or_imp, forall_and]

theorem CitesWithin.mono (h : CitesWithin keys nodes) (hkeys : ∀ key ∈ keys, key ∈ more) :
    CitesWithin more nodes := fun node hnode key hkey => hkeys key (h node hnode key hkey)

theorem Findings.Covers.withCitations {f : Findings} (hf : f.Covers nodes)
    (hkeys : CitesWithin keys nodes) : Covers { f with citations := keys } nodes := by
  intro node hnode
  have hknown := hf node hnode
  have hcited := hkeys node hnode
  unfold Knows at hknown ⊢
  split at hknown
  · exact ⟨fun key hkey => hcited key hkey, hknown.2⟩
  · exact hknown

theorem mem_citations_of_absorbs {f g : Findings} (h : f.Absorbs g) {key : Text}
    (hkey : key ∈ g.citations) : key ∈ f.citations := by
  rw [← h]
  exact mem_citations_combine.2 (.inr hkey)

end

/-- Looking through nodes finds only keys that they cite. -/
theorem mem_citations_observeInlines {keys : TextSet} {nodes : List Inline}
    (h : CitesWithin keys (inlineNodes nodes)) {key : Text}
    (hkey : key ∈ (observeInlines nodes).citations) : key ∈ keys :=
  mem_citations_of_absorbs
    (observeInlines_absorbed nodes ((observeInlines_covers nodes).withCitations h)) hkey

theorem mem_citations_observeBlocks {keys : TextSet} {blocks : List Block}
    (h : CitesWithin keys (blockNodes blocks)) {key : Text}
    (hkey : key ∈ (observeBlocks blocks).citations) : key ∈ keys :=
  mem_citations_of_absorbs
    (observeBlocks_absorbed blocks ((observeBlocks_covers blocks).withCitations h)) hkey

/-- Some row of keys is cited, and what the nodes cite is noted. -/
structure CitationsTraced (stem : Text) (bib : Bibliography) (nodes : List TreeNode) (n : Notes) :
    Prop where
  cites : ∃ keys, n.Cites stem bib keys
  within : CitesWithin n.findings.citations nodes

namespace CitationsTraced

variable {stem : Text} {bib : Bibliography} {nodes others : List TreeNode} {m n : Notes}

theorem behind (hm : ∃ keys, m.Cites stem bib keys) (hn : CitationsTraced stem bib nodes n) :
    CitationsTraced stem bib nodes (m.combine n) where
  cites := by
    obtain ⟨keys, hkeys⟩ := hm
    obtain ⟨more, hmore⟩ := hn.cites
    exact ⟨keys ++ more, hkeys.combine hmore⟩
  within := hn.within.mono fun _ hkey => mem_citations_combine.2 (.inr hkey)

theorem before (hm : CitationsTraced stem bib nodes m) (hn : ∃ keys, n.Cites stem bib keys) :
    CitationsTraced stem bib nodes (m.combine n) where
  cites := by
    obtain ⟨keys, hkeys⟩ := hm.cites
    obtain ⟨more, hmore⟩ := hn
    exact ⟨keys ++ more, hkeys.combine hmore⟩
  within := hm.within.mono fun _ hkey => mem_citations_combine.2 (.inl hkey)

theorem append (hm : CitationsTraced stem bib nodes m) (hn : CitationsTraced stem bib others n) :
    CitationsTraced stem bib (nodes ++ others) (m.combine n) :=
  ⟨(hm.before hn.cites).cites,
    citesWithin_append.2 ⟨(hm.before hn.cites).within, (behind hm.cites hn).within⟩⟩

/-- Nodes that cite nothing besides nodes that are traced. -/
theorem around (h : CitationsTraced stem bib nodes n)
    (hothers : CitesWithin n.findings.citations nodes → CitesWithin n.findings.citations others) :
    CitationsTraced stem bib others n := ⟨h.cites, hothers h.within⟩

theorem of_uncited (h : ∀ keys, CitesWithin keys nodes) : CitationsTraced stem bib nodes {} :=
  ⟨⟨[], Notes.cites_empty⟩, h _⟩

end CitationsTraced

section

variable (stem : Text) (bib : Bibliography)

def InlinesTraced (nodes : List Inline) (n : Notes) : Prop :=
  CitationsTraced stem bib (inlineNodes nodes) n

def BlocksTraced (blocks : List Block) (n : Notes) : Prop :=
  CitationsTraced stem bib (blockNodes blocks) n

def ItemsTraced (items : List (List Block)) (n : Notes) : Prop :=
  CitationsTraced stem bib (itemNodes items) n

def DeclinedTraced (_ : Text) (n : Notes) : Prop := ∃ keys, n.Cites stem bib keys

variable {stem bib}

theorem citesWithin_resolveLink {keys : TextSet} {attr : Attr} {content : List Inline}
    {target : Target} (hpairs : attr.pairs = [])
    (hcontent : CitesWithin keys (inlineNodes content)) :
    CitesWithin keys (inlineNodes [resolveLink attr content target]) := by
  have hcite : attr.get? "data-cite" = none := by simp [Attr.get?, hpairs]
  unfold resolveLink
  split
  · rw [hcite]
    simpa [inlineNodes, Inline.inner, TreeNode.citedKey?] using hcontent
  · rw [inlineNodes, citesWithin_append, citesWithin_cons, TreeNode.citedKey?, hcite]
    simpa [inlineNodes, Inline.inner] using hcontent

theorem cites_labelFindings (attr : Attr) :
    Notes.Cites stem bib [] { findings := labelFindings attr } := by
  apply Notes.cites_findings
  unfold labelFindings
  split <;> rfl

theorem cites_linkFindings (target : Target) (content : List Inline) :
    Notes.Cites stem bib [] { findings := linkFindings target content } := Notes.cites_findings rfl

theorem traced_sourceRules : SourceRules (InlinesTraced stem bib) (BlocksTraced stem bib)
    (ItemsTraced stem bib) (DeclinedTraced stem bib) where
  noInlines := .of_uncited fun _ => citesWithin_nil
  moreInlines ha hb := by
    unfold InlinesTraced
    rw [inlineNodes_append]
    exact ha.append hb
  inlineLeaf {node} _ hleaf := by
    refine .of_uncited fun keys => ?_
    cases node <;> first
      | exact hleaf.elim
      | simp [inlineNodes, Inline.inner, TreeNode.citedKey?]
  unrecognized page _ hm := by
    obtain ⟨keys, hkeys⟩ := hm
    refine ⟨⟨_, hkeys.combine (Notes.cites_warning page _)⟩, ?_⟩
    simp [inlineNodes, Inline.inner, TreeNode.citedKey?]
  styled _ h := h.around fun h => by
    simpa [inlineNodes, Inline.inner, TreeNode.citedKey?] using h
  quoted h _ := h.elim
  link hpairs h := (h.around (citesWithin_resolveLink hpairs)).before ⟨[], cites_linkFindings _ _⟩
  image h _ := h.elim
  span h _ := h.elim
  crossRef h _ := h.elim
  note h _ := h.elim
  noBlocks := .of_uncited fun _ => citesWithin_nil
  moreBlocks ha hb := by
    unfold BlocksTraced
    rw [blockNodes_append]
    exact ha.append hb
  blockLeaf {block} _ hleaf := by
    refine .of_uncited fun keys => ?_
    cases block <;> first
      | exact hleaf.elim
      | simp [blockNodes, Block.inner, TreeNode.citedKey?]
  para h := h.around fun h => by simpa [blockNodes, Block.inner, TreeNode.citedKey?] using h
  plain h _ := h.elim
  header _ attr h := (h.around fun h => by
    simpa [blockNodes, Block.inner, TreeNode.citedKey?] using h).behind
      ⟨[], cites_labelFindings attr⟩
  quote h _ := h.elim
  div h _ := h.elim
  noItems := .of_uncited fun _ => citesWithin_nil
  moreItems ha hb := by
    unfold ItemsTraced
    rw [itemNodes]
    exact ha.append hb
  bullets h := h.around fun h => by simpa [blockNodes, Block.inner, TreeNode.citedKey?] using h
  numbered _ h := h.around fun h => by simpa [blockNodes, Block.inner, TreeNode.citedKey?] using h

/-- What is built is looked through without anything new being cited. -/
theorem traced_expansionRules : ExpansionRules (InlinesTraced stem bib) (BlocksTraced stem bib)
    (InlinesTraced stem bib) (BlocksTraced stem bib) (DeclinedTraced stem bib)
    (DeclinedTraced stem bib) where
  observedInlines {_ n} h := by
    obtain ⟨keys, hkeys⟩ := h.cites
    refine ⟨⟨keys, hkeys.noted_again fun _ => mem_citations_observeInlines h.within⟩, ?_⟩
    exact h.within.mono fun _ hkey => mem_citations_combine.2 (.inl hkey)
  observedBlocks {_ n} h := by
    obtain ⟨keys, hkeys⟩ := h.cites
    refine ⟨⟨keys, hkeys.noted_again fun _ => mem_citations_observeBlocks h.within⟩, ?_⟩
    exact h.within.mono fun _ hkey => mem_citations_combine.2 (.inl hkey)
  behind hm h := CitationsTraced.behind hm h
  emptied h := h.around fun _ => citesWithin_nil
  paragraph h := h.around fun h => by simpa [blockNodes, Block.inner, TreeNode.citedKey?] using h
  unexpanded page hm hn := by
    obtain ⟨keys, hkeys⟩ := hm
    obtain ⟨more, hmore⟩ := hn
    refine ⟨⟨_, hkeys.combine (hmore.combine (Notes.cites_warning page _))⟩, ?_⟩
    simp [blockNodes, Block.inner, TreeNode.citedKey?]

end

structure FormContext.Traces (page : Text) (bib : Bibliography) (c : FormContext) : Prop where
  stem : c.stem = page
  bibliography : c.bibliography = bib
  plainText (text : Text) : (c.plainText text).Ensures fun _ n => n.Cites page bib []
  blocks (text : Text) : (c.blocks text).Ensures (BlocksTraced page bib)
  inlines (text : Text) : (c.inlines text).Ensures (InlinesTraced page bib)

namespace Form

section

variable {page : Text} {bib : Bibliography} {c : FormContext} {inv : Invocation}

/-- What a form of running text builds is traced, or else it declines and what it leaves is. -/
abbrev TracesInlines (page : Text) (bib : Bibliography) : Option (List Inline) → Notes → Prop :=
  Made (InlinesTraced page bib) fun n => ∃ keys, n.Cites page bib keys

abbrev TracesBlocks (page : Text) (bib : Bibliography) : Option (List Block) → Notes → Prop :=
  Made (BlocksTraced page bib) fun n => ∃ keys, n.Cites page bib keys

theorem traces_none {Kind : Type} {P : List Kind → Notes → Prop} :
    Ensures (Pure.pure none) (Made P fun n => ∃ keys, n.Cites page bib keys) := by
  apply ensures_pure
  exact ⟨[], Notes.cites_empty⟩

theorem traces_inlines {nodes : List Inline} (h : ∀ keys, CitesWithin keys (inlineNodes nodes)) :
    Ensures (Pure.pure (some nodes)) (TracesInlines page bib) := by
  apply ensures_pure
  exact .of_uncited h

theorem traces_blocks {blocks : List Block} (h : ∀ keys, CitesWithin keys (blockNodes blocks)) :
    Ensures (Pure.pure (some blocks)) (TracesBlocks page bib) := by
  apply ensures_pure
  exact .of_uncited h

/-- Notes that cite nothing in front of a page whose nodes cite nothing. -/
theorem traces_inlines_behind {α : Type} {x : Walk α} {nodes : List Inline}
    (hx : x.Ensures fun _ n => n.Cites page bib [])
    (h : ∀ keys, CitesWithin keys (inlineNodes nodes)) :
    (x >>= fun _ => Pure.pure (some nodes)).Ensures (TracesInlines page bib) :=
  ensures_bind_pure hx fun _ n hn => ⟨⟨[], hn⟩, h n.findings.citations⟩

theorem traces_blocks_behind {α : Type} {x : Walk α} {blocks : List Block}
    (hx : x.Ensures fun _ n => n.Cites page bib [])
    (h : ∀ keys, CitesWithin keys (blockNodes blocks)) :
    (x >>= fun _ => Pure.pure (some blocks)).Ensures (TracesBlocks page bib) :=
  ensures_bind_pure hx fun _ n hn => ⟨⟨[], hn⟩, h n.findings.citations⟩

theorem cites_note (page : Text) (bib : Bibliography) {f : Findings} (hf : f.citations = ∅) :
    (note f).Ensures fun _ n => n.Cites page bib [] := ensures_note (Notes.cites_findings hf)

theorem cites_warn (message : Text) : (c.warn message).Ensures fun _ n => n.Cites page bib [] :=
  ensures_report (Notes.cites_warning _ _)

theorem icon_traces : (icon c inv).Ensures (TracesInlines page bib) :=
  traces_inlines fun _ => by simp [inlineNodes, Inline.inner, TreeNode.citedKey?]

theorem includeImage_traces : (includeImage c inv).Ensures (TracesInlines page bib) := by
  unfold includeImage
  split
  · exact traces_none
  · exact traces_inlines fun _ => by simp [inlineNodes, Inline.inner, TreeNode.citedKey?]

theorem oeis_traces : (oeis c inv).Ensures (TracesInlines page bib) :=
  traces_inlines fun _ => by
    simp [inlineNodes, Inline.inner, TreeNode.citedKey?, Attr.get?, Attr.empty]

theorem reference_traces : (reference c inv).Ensures (TracesInlines page bib) := by
  unfold reference
  split
  · exact traces_none
  · exact traces_inlines fun _ => by simp [inlineNodes, Inline.inner, TreeNode.citedKey?]

theorem label_traces : (label c inv).Ensures (TracesInlines page bib) := by
  unfold label
  split
  · exact traces_none
  · exact traces_inlines fun _ => by simp [inlineNodes, Inline.inner, TreeNode.citedKey?]

theorem inlineSpace_traces : (inlineSpace c inv).Ensures (TracesInlines page bib) :=
  traces_inlines_behind (cites_warn _) fun _ => by
    simp [classed, inlineNodes, Inline.inner, TreeNode.citedKey?]

theorem inlineTable_traces : (inlineTable c inv).Ensures (TracesInlines page bib) :=
  traces_inlines_behind (cites_warn _) fun _ => by
    simp [classed, inlineNodes, Inline.inner, TreeNode.citedKey?]

theorem todo_traces : (todo c inv).Ensures (TracesInlines page bib) :=
  traces_inlines_behind (cites_note page bib rfl) fun _ => citesWithin_nil

theorem blockSpace_traces : (blockSpace c inv).Ensures (TracesBlocks page bib) :=
  traces_blocks fun _ => by simp [blockNodes, Block.inner, TreeNode.citedKey?]

theorem styleRules_traces : (styleRules c inv).Ensures (TracesBlocks page bib) :=
  traces_blocks_behind (cites_note page bib rfl) fun _ => citesWithin_nil

theorem specialBlock_traces : (specialBlock c inv).Ensures (TracesBlocks page bib) := by
  unfold specialBlock
  split
  · exact traces_blocks fun _ => by simp [blockNodes, Block.inner, TreeNode.citedKey?]
  · exact traces_none

theorem polydata_traces : (polydata c inv).Ensures (TracesBlocks page bib) := by
  unfold polydata
  split
  · exact traces_none
  · exact traces_blocks_behind (cites_note page bib rfl) fun _ => citesWithin_nil

theorem table_traces : (table c inv).Ensures (TracesBlocks page bib) :=
  traces_blocks fun _ => by simp [blockNodes, Block.inner, TreeNode.citedKey?]

variable (hc : c.Traces page bib)

include hc

theorem defin_traces : (defin c inv).Ensures (TracesInlines page bib) :=
  ensures_bind_pure (hc.inlines _) fun _ _ hn => hn.around fun h => by
    simpa [classed, inlineNodes, Inline.inner, TreeNode.citedKey?] using h

theorem fileLink_traces : (fileLink c inv).Ensures (TracesInlines page bib) :=
  ensures_bind_pure (hc.inlines _) fun _ _ hn => hn.around fun h => by
    simpa [inlineNodes, Inline.inner, TreeNode.citedKey?, Attr.get?, Attr.empty] using h

theorem hyperref_traces : (hyperref c inv).Ensures (TracesInlines page bib) := by
  unfold hyperref
  simp only
  split
  · exact traces_none
  · exact ensures_bind_pure (hc.inlines _) fun _ _ hn => hn.around fun h => by
      simpa [inlineNodes, Inline.inner, TreeNode.citedKey?] using h

theorem enquote_traces : (enquote c inv).Ensures (TracesInlines page bib) :=
  ensures_bind_pure (hc.inlines _) fun _ _ hn => hn.around fun h => by
    simpa [inlineNodes, Inline.inner, TreeNode.citedKey?] using h

theorem topicCard_traces : (topicCard c inv).Ensures (TracesInlines page bib) := by
  unfold topicCard
  simp only
  split
  · exact traces_none
  · refine ensures_bind (hc.inlines _) fun title _ htitle => ?_
    refine ensures_bind_pure (hc.inlines _) fun _ _ hdescription => ?_
    exact (CitationsTraced.before htitle hdescription.cites).around fun h => by
      simpa [card, classed, inlineNodes, Inline.inner, TreeNode.citedKey?] using h

theorem pageMeta_traces : (pageMeta c inv).Ensures (TracesBlocks page bib) := by
  refine ensures_bind (hc.plainText _) fun value m hm => ?_
  refine ensures_bind_pure (cites_note page bib ?_) fun _ n hn => ?_
  · split
    · rfl
    · split <;> rfl
  · exact ⟨⟨[], hm.combine hn⟩, citesWithin_nil⟩

theorem blockQuote_traces : (blockQuote c inv).Ensures (TracesBlocks page bib) :=
  ensures_bind_pure (hc.blocks _) fun _ _ hn => hn.around fun h => by
    simpa [blockNodes, Block.inner, TreeNode.citedKey?] using h

theorem boxTitle_traces : (boxTitle c inv.optional).Ensures (InlinesTraced page bib) := by
  unfold boxTitle
  simp only
  split
  · exact ensures_pure (.of_uncited fun _ => citesWithin_nil)
  · exact ensures_bind_pure (hc.inlines _) fun _ _ hn => hn.around fun h => by
      simpa [inlineNodes, Inline.inner, TreeNode.citedKey?] using h

theorem theoremBox_traces : (theoremBox c inv).Ensures (TracesBlocks page bib) := by
  refine ensures_bind (boxTitle_traces hc) fun title _ htitle => ?_
  refine ensures_bind_pure (hc.blocks _) fun content _ hcontent => ?_
  exact (CitationsTraced.append htitle hcontent).around fun h => by
    simpa [blockNodes, Block.inner, inlineNodes, Inline.inner, TreeNode.citedKey?] using h

theorem family_traces : (family c inv).Ensures (TracesBlocks page bib) := by
  unfold family
  simp only
  split
  · exact traces_none
  · refine ensures_bind (hc.inlines _) fun title _ htitle => ?_
    refine ensures_bind_pure (cites_note page bib rfl) fun _ _ hn => ?_
    exact (CitationsTraced.before htitle ⟨[], hn⟩).around fun h => by
      simpa [blockNodes, Block.inner, TreeNode.citedKey?] using h

theorem figure_traces : (figure c inv).Ensures (TracesBlocks page bib) :=
  ensures_bind_pure (hc.blocks _) fun _ _ hn => hn.around fun h => by
    simpa [blockNodes, Block.inner, TreeNode.citedKey?] using h

theorem topicSection_traces : (topicSection c inv).Ensures (TracesBlocks page bib) := by
  refine ensures_bind (hc.inlines _) fun title _ htitle => ?_
  refine ensures_bind_pure (hc.blocks _) fun cards _ hcards => ?_
  exact (CitationsTraced.append htitle hcards).around fun h => by
    simpa [blockNodes, Block.inner, TreeNode.citedKey?] using h

/-- A citation shows the label of its entry, or it marks and reports that there is none. -/
theorem citeLink_traces (key : Text) : (citeLink c key).Ensures fun link n =>
    (∃ shown, bib.Shows key shown ∧ link = citation key shown) ∧ n = citeNotes page bib [key] := by
  have hcited (shown : Text) (hshown : bib.Shows key shown) (n : Notes)
      (hn : n.combine { findings := .ofCitation key } = citeNotes page bib [key]) :
      Ensures (note (.ofCitation key) >>= fun _ => Pure.pure (citation key shown))
        fun link m => (∃ shown, bib.Shows key shown ∧ link = citation key shown) ∧
          n.combine m = citeNotes page bib [key] :=
    ensures_bind_pure (ensures_note (P := fun _ m => m = { findings := .ofCitation key }) rfl)
      fun _ m hm => ⟨⟨shown, hshown, rfl⟩, by rw [hm, hn]⟩
  unfold citeLink
  cases hentry : bib.get? key with
  | some entry =>
    have hundefined : bib.undefined [key] = [] := by
      simp [Bibliography.undefined, TextMap.contains, hentry]
    have htext : (citeText c key).Ensures fun shown n => bib.Shows key shown ∧ n = {} := by
      unfold citeText Bibliography.Shows
      rw [hc.bibliography, hentry]
      exact ensures_ofExcept fun _ hlabel => ⟨hlabel, rfl⟩
    refine ensures_bind htext fun shown n hn => hcited shown hn.1 n ?_
    rw [hn.2, Notes.empty_combine, citeNotes, hundefined]
    rfl
  | none =>
    have hundefined : bib.undefined [key] = [key] := by
      simp [Bibliography.undefined, TextMap.contains, hentry]
    have htext : (citeText c key).Ensures fun shown n =>
        bib.Shows key shown ∧ n = { diagnostics := [undefinedKey page key] } := by
      unfold citeText Bibliography.Shows FormContext.error
      rw [hc.bibliography, hc.stem, hentry]
      exact ensures_bind_pure (ensures_report (P := fun _ n =>
        n = { diagnostics := [undefinedKey page key] }) rfl) fun _ _ hn => ⟨rfl, hn⟩
    refine ensures_bind htext fun shown n hn => hcited shown hn.1 n ?_
    rw [hn.2, citeNotes, hundefined]
    rfl

theorem citeLinks_traces (keys : List Text) : (citeLinks c keys).Ensures fun links n =>
    bib.Links keys links ∧ n = citeNotes page bib keys := by
  induction keys with
  | nil => exact ensures_pure ⟨.nil, rfl⟩
  | cons key more ih =>
    refine ensures_bind (citeLink_traces hc key) fun link m hlink => ?_
    refine ensures_bind_pure ih fun links n hlinks => ⟨.cons hlink.1 hlinks.1, ?_⟩
    rw [hlink.2, hlinks.2, ← citeNotes_cons]

theorem citeNote_traces : (citeNote c inv.optional).Ensures (InlinesTraced page bib) := by
  unfold citeNote
  simp only
  split
  · exact ensures_pure (.of_uncited fun _ => citesWithin_nil)
  · exact ensures_bind_pure (hc.inlines _) fun _ _ hn => hn.around fun h => by
      simpa [inlineNodes, Inline.inner, TreeNode.citedKey?] using h

omit hc in
/-- A citation cites its keys, and what its note cites. -/
theorem citesWithin_citation {keys : List Text} {attr : Attr} {front links : List Inline}
    {cited : TextSet} (hfront : CitesWithin cited (inlineNodes front))
    (hlinks : bib.Links keys links) (hkeys : ∀ key ∈ keys, key ∈ cited) :
    CitesWithin cited (inlineNodes [.span attr
      (.text "[" :: front ++ links.intersperse (.text ", ") ++ [.text "]"])]) := by
  refine forall_mem_citation (by simp [TreeNode.citedKey?]) (by simp [TreeNode.citedKey?]) hfront
    fun link hlink => ?_
  obtain ⟨key, hkey, shown, _, rfl⟩ := exists_of_mem_right hlinks hlink
  refine ⟨key, shown, rfl, ?_⟩
  simpa [citation, TreeNode.citedKey?, Attr.get?, Attr.set, Attr.setPair, Attr.ofClasses]
    using hkeys key hkey

theorem cite_traces : (cite c inv).Ensures (TracesInlines page bib) := by
  unfold cite
  simp only
  split
  · exact traces_none
  · refine ensures_bind (citeNote_traces hc) fun front m hfront => ?_
    refine ensures_bind_pure (citeLinks_traces hc _) fun links n hlinks => ?_
    have hcites := citeNotes_cites page bib (citeKeys (inv.arg 0))
    rw [← hlinks.2] at hcites
    have hnotes := CitationsTraced.before hfront ⟨_, hcites⟩
    refine ⟨hnotes.cites, citesWithin_citation hnotes.within hlinks.1 fun key hkey => ?_⟩
    exact mem_citations_combine.2 (.inr ((hcites.noted key).2 hkey))

theorem inlineForms_trace {form : Form Inline} (hform : form ∈ inlineForms) :
    (form.expand c inv).Ensures (TracesInlines page bib) := by
  simp only [inlineForms, List.mem_cons, List.not_mem_nil, or_false] at hform
  rcases hform with rfl | rfl | rfl | rfl | rfl | rfl | rfl | rfl | rfl | rfl | rfl | rfl | rfl |
    rfl
  · exact defin_traces hc
  · exact icon_traces (c := c)
  · exact includeImage_traces (c := c)
  · exact oeis_traces (c := c)
  · exact fileLink_traces hc
  · exact hyperref_traces hc
  · exact reference_traces (c := c)
  · exact label_traces (c := c)
  · exact enquote_traces hc
  · exact cite_traces hc
  · exact inlineSpace_traces
  · exact inlineTable_traces
  · exact topicCard_traces hc
  · exact todo_traces (c := c)

theorem blockForms_trace {form : Form Block} (hform : form ∈ blockForms) :
    (form.expand c inv).Ensures (TracesBlocks page bib) := by
  simp only [blockForms, List.mem_cons, List.not_mem_nil, or_false] at hform
  rcases hform with rfl | rfl | rfl | rfl | rfl | rfl | rfl | rfl | rfl | rfl | rfl | rfl | rfl
  · exact blockSpace_traces (c := c)
  · exact pageMeta_traces hc
  · exact styleRules_traces (c := c)
  · exact specialBlock_traces (c := c)
  · exact blockQuote_traces hc
  · exact theoremBox_traces hc
  · exact family_traces hc
  · exact polydata_traces (c := c)
  · exact figure_traces hc
  · exact topicSection_traces hc
  · exact table_traces (c := c)
  · exact table_traces (c := c)
  · exact table_traces (c := c)

end

end Form

theorem formContext_traces {page : Text} {bib : Bibliography} {inner : Expander}
    (hinner : Expander.Makes (InlinesTraced page bib) (BlocksTraced page bib)
      (DeclinedTraced page bib) inner) :
    (Expander.formContext (sourceContext page bib) inner).Traces page bib where
  stem := rfl
  bibliography := rfl
  plainText _ := ensures_bind_pure (ensures_read (P := fun _ n => n.Cites page bib [])
    Notes.cites_empty) fun _ _ hn => hn
  blocks := formContext_blocks_ensures traced_sourceRules (fun _ h => h) hinner
  inlines := formContext_inlines_ensures traced_sourceRules (fun _ h => h) hinner

/-- In whatever the expander makes of page source the citations are traced. -/
theorem full_traces (page : Text) (bib : Bibliography) :
    Expander.Makes (InlinesTraced page bib) (BlocksTraced page bib) (DeclinedTraced page bib)
      (.full Form.vocabulary (sourceContext page bib)) := by
  have hnone : ∃ keys, Notes.Cites page bib keys {} := ⟨[], Notes.cites_empty⟩
  refine full_makes traced_expansionRules (fun _ => hnone) (fun _ => hnone)
    fun inner hinner text => ?_
  have hc : (Expander.formContext (sourceContext page bib) inner).Traces page bib :=
    formContext_traces hinner
  constructor
  · exact Form.expandFirst_ensures Form.inlineForms_exclusive hnone fun form hform inv =>
      Form.inlineForms_trace hc hform
  · exact Form.expandFirst_ensures Form.blockForms_exclusive hnone fun form hform inv =>
      Form.blockForms_trace hc hform

end TexCatalog
