import TexCatalog.Proofs.RecordCoverage
import TexCatalog.Proofs.WalkLevels

/-!
# The macros that survive a walk

Page source that is left in a raw node is source that no form expands there, and each such node has
been warned of. The levels of an expander cannot carry this, since the innermost one expands
nothing; it is shown of the full expander itself, by induction on the length of texts.
-/

namespace TexCatalog

def Form.Passed {Kind : Type} (forms : List (Form Kind)) (text : Text) : Prop :=
  ∀ c : FormContext, expandFirst c text forms = pure none

open Walk

/-- Page source that is left in a node is not expanded by a form that may stand there. -/
def TreeNode.Settled : TreeNode → Prop
  | .inline (.raw format text) => format.isTex → Form.Passed Form.inlineForms text
  | .block (.raw format text) =>
    format.isTex → Form.Passed Form.blockForms text ∧ Form.Passed Form.inlineForms text
  | _ => True

def Diagnostic.isUnrecognized (d : Diagnostic) : Bool :=
  d.isWarning && (("unrecognized inline macro: " : Text).isPrefixOf d.message ||
    ("unrecognized block macro: " : Text).isPrefixOf d.message)

theorem unrecognizedInline_isUnrecognized (stem text : Text) :
    (unrecognizedInline stem text).isUnrecognized = true := by
  have hprefix : ("unrecognized inline macro: " : Text).isPrefixOf
      ("unrecognized inline macro: " ++ excerpt text) = true :=
    List.isPrefixOf_iff_prefix.2 (List.prefix_append _ _)
  simp only [Diagnostic.isUnrecognized, unrecognizedInline, hprefix, Bool.true_or, Bool.and_true]
  rfl

theorem unrecognizedBlock_isUnrecognized (stem text : Text) :
    (unrecognizedBlock stem text).isUnrecognized = true := by
  have hprefix : ("unrecognized block macro: " : Text).isPrefixOf
      ("unrecognized block macro: " ++ excerpt text) = true :=
    List.isPrefixOf_iff_prefix.2 (List.prefix_append _ _)
  simp only [Diagnostic.isUnrecognized, unrecognizedBlock, hprefix, Bool.or_true, Bool.and_true]
  rfl

/-- The page source left in nodes is settled, and there are as many warnings as there are nodes that
hold some. -/
structure Settles (nodes : List TreeNode) (n : Notes) : Prop where
  settled : ∀ node ∈ nodes, node.Settled
  warned : nodes.countP (·.tex?.isSome) ≤ n.diagnostics.countP Diagnostic.isUnrecognized

def InlinesSettle (nodes : List Inline) (n : Notes) : Prop := Settles (inlineNodes nodes) n

def BlocksSettle (blocks : List Block) (n : Notes) : Prop := Settles (blockNodes blocks) n

def ItemsSettle (items : List (List Block)) (n : Notes) : Prop := Settles (itemNodes items) n

theorem TreeNode.settled_of_no_tex {node : TreeNode} (h : node.tex? = none) : node.Settled := by
  unfold TreeNode.Settled
  split
  · intro htex
    simp [TreeNode.tex?, htex] at h
  · intro htex
    simp [TreeNode.tex?, htex] at h
  · trivial

section

variable {nodes more : List TreeNode} {node : TreeNode} {m n : Notes}

theorem settles_of_no_tex (h : TexAll (fun _ => False) nodes) (n : Notes) : Settles nodes n := by
  have hnone (node : TreeNode) (hnode : node ∈ nodes) : node.tex? = none :=
    Option.eq_none_iff_forall_not_mem.2 (h node hnode)
  refine ⟨fun node hnode => TreeNode.settled_of_no_tex (hnone node hnode), ?_⟩
  have hzero : nodes.countP (·.tex?.isSome) = 0 := by
    rw [List.countP_eq_zero]
    intro node hnode
    simp [hnone node hnode]
  rw [hzero]
  exact Nat.zero_le _

theorem Settles.append (ha : Settles nodes m) (hb : Settles more n) :
    Settles (nodes ++ more) (m.combine n) := by
  refine ⟨List.forall_mem_append.2 ⟨ha.settled, hb.settled⟩, ?_⟩
  rw [List.countP_append, Notes.combine, List.countP_append]
  exact Nat.add_le_add ha.warned hb.warned

theorem Settles.before (h : Settles nodes m) (n : Notes) : Settles nodes (m.combine n) := by
  have happend := h.append (settles_of_no_tex texAll_nil n)
  rwa [List.append_nil] at happend

theorem Settles.behind (h : Settles nodes n) (m : Notes) : Settles nodes (m.combine n) :=
  (settles_of_no_tex texAll_nil m).append h

/-- A node without page source of its own changes nothing. -/
theorem Settles.cons (h : Settles nodes n) (hnode : node.tex? = none) :
    Settles (node :: nodes) n := by
  refine ⟨List.forall_mem_cons.2 ⟨TreeNode.settled_of_no_tex hnode, h.settled⟩, ?_⟩
  rw [List.countP_cons, hnode]
  exact h.warned

/-- A node with page source takes one warning. -/
theorem Settles.raw (hnode : node.Settled) {d : Diagnostic} (hd : d.isUnrecognized = true) :
    Settles [node] { diagnostics := [d] } := by
  refine ⟨List.forall_mem_singleton.2 hnode, ?_⟩
  have hone : [node].countP (·.tex?.isSome) ≤ 1 := List.countP_le_length
  have hwarned : [d].countP Diagnostic.isUnrecognized = 1 := by simp [hd]
  rw [hwarned]
  exact hone

end

section

variable {node : Inline} {block : Block} {n : Notes}

theorem inlinesSettle_of_inner (h : Settles node.inner n)
    (hnode : (TreeNode.inline node).tex? = none) : InlinesSettle [node] n := by
  unfold InlinesSettle
  rw [inlineNodes, inlineNodes, List.append_nil]
  exact h.cons hnode

theorem blocksSettle_of_inner (h : Settles block.inner n)
    (hblock : (TreeNode.block block).tex? = none) : BlocksSettle [block] n := by
  unfold BlocksSettle
  rw [blockNodes, blockNodes, List.append_nil]
  exact h.cons hblock

theorem InlinesSettle.resolveLink {content : List Inline} (h : InlinesSettle content n)
    (attr : Attr) (target : Target) : InlinesSettle [resolveLink attr content target] n := by
  unfold TexCatalog.resolveLink
  split
  · split
    · exact inlinesSettle_of_inner h rfl
    · exact inlinesSettle_of_inner h rfl
  · exact inlinesSettle_of_inner h rfl

end

/-- What a walk leaves of page source is settled. -/
theorem settle_treeRules : TreeRules (fun _ => True) InlinesSettle BlocksSettle ItemsSettle
    (fun text _ => Form.Passed Form.inlineForms text) where
  noInlines := settles_of_no_tex texAll_nil {}
  moreInlines {a b m n} ha hb := by
    unfold InlinesSettle
    rw [inlineNodes_append]
    exact Settles.append ha hb
  inlineLeaf {node} _ hleaf := by
    apply inlinesSettle_of_inner
    · cases node <;> first | exact hleaf.elim | exact settles_of_no_tex texAll_nil {}
    · cases node <;> first | exact hleaf.elim | rfl | exact if_neg hleaf
  unrecognized {format text m} stem _ hpassed := by
    have hsettled : (TreeNode.inline (.raw format text)).Settled := fun _ => hpassed
    refine Settles.behind ?_ m
    exact Settles.raw hsettled (unrecognizedInline_isUnrecognized stem text)
  styled _ h := inlinesSettle_of_inner h rfl
  quoted _ h := inlinesSettle_of_inner h rfl
  link {attr _ _ target _} _ h := Settles.before (h.resolveLink attr target) _
  image _ h := inlinesSettle_of_inner h rfl
  span _ h := by
    refine Settles.behind ?_ _
    exact inlinesSettle_of_inner h rfl
  crossRef _ h := inlinesSettle_of_inner h rfl
  note _ h := inlinesSettle_of_inner h rfl
  noBlocks := settles_of_no_tex texAll_nil {}
  moreBlocks ha hb := by
    unfold BlocksSettle
    rw [blockNodes_append]
    exact Settles.append ha hb
  blockLeaf {block} _ hleaf := by
    apply blocksSettle_of_inner
    · cases block <;> first | exact hleaf.elim | exact settles_of_no_tex texAll_nil {}
    · cases block <;> first | exact hleaf.elim | rfl | exact if_neg hleaf
  para h := blocksSettle_of_inner h rfl
  plain _ h := blocksSettle_of_inner h rfl
  header _ _ h := by
    refine Settles.behind ?_ _
    exact blocksSettle_of_inner h rfl
  quote _ h := blocksSettle_of_inner h rfl
  div _ h := by
    refine Settles.behind ?_ _
    exact blocksSettle_of_inner h rfl
  noItems := settles_of_no_tex texAll_nil {}
  moreItems ha hb := by
    unfold ItemsSettle
    rw [itemNodes]
    exact Settles.append ha hb
  bullets h := blocksSettle_of_inner h rfl
  numbered _ h := blocksSettle_of_inner h rfl

/-- What a form has built is settled if what it was given is. -/
theorem settle_expansionRules : ExpansionRules InlinesSettle BlocksSettle InlinesSettle BlocksSettle
    (fun text _ => Form.Passed Form.inlineForms text)
    (fun text _ => Form.Passed Form.blockForms text) where
  observedInlines h := Settles.before h _
  observedBlocks h := Settles.before h _
  behind _ h := Settles.behind h _
  emptied h := h
  paragraph h := blocksSettle_of_inner h rfl
  unexpanded {text m n} stem hpassed hdeclined := by
    have hsettled : (TreeNode.block (.raw .tex text)).Settled := fun _ => ⟨hpassed, hdeclined⟩
    refine Settles.behind (Settles.behind ?_ n) m
    exact Settles.raw hsettled (unrecognizedBlock_isUnrecognized stem text)

/-- A context in which page source that is left in the answers is settled. -/
structure FormContext.Settling (c : FormContext) : Prop where
  blocks (text : Text) : (c.blocks text).Ensures BlocksSettle
  inlines (text : Text) : (c.inlines text).Ensures InlinesSettle

namespace Form

/-- A match is either declined in every context, before anything is asked, or it is expanded in all
contexts in which what is left is settled, and what is built is settled. -/
def Decides {Kind : Type} (P : List Kind → Notes → Prop)
    (expand : FormContext → Walk (Option (List Kind))) : Prop :=
  (∀ c, expand c = Pure.pure none) ∨
    ∀ c : FormContext, c.Settling → (expand c).Ensures (Made P fun _ => False)

section

variable {inv : Invocation}

theorem decides_none {Kind : Type} {P : List Kind → Notes → Prop} :
    Decides P fun _ => Pure.pure none := .inl fun _ => rfl

/-- Nodes without page source that are made without walking anything. -/
theorem decides_inlines {nodes : List Inline} (h : TexAll (fun _ => False) (inlineNodes nodes)) :
    Decides InlinesSettle fun _ => Pure.pure (some nodes) :=
  .inr fun _ _ => ensures_pure (settles_of_no_tex h {})

theorem decides_blocks {blocks : List Block} (h : TexAll (fun _ => False) (blockNodes blocks)) :
    Decides BlocksSettle fun _ => Pure.pure (some blocks) :=
  .inr fun _ _ => ensures_pure (settles_of_no_tex h {})

theorem defin_decides : Decides InlinesSettle fun c => defin c inv :=
  .inr fun _ hc => ensures_bind_pure (hc.inlines _) fun _ _ hn => inlinesSettle_of_inner hn rfl

theorem icon_decides : Decides InlinesSettle fun c => icon c inv := by
  apply decides_inlines
  simp [inlineNodes, Inline.inner, TreeNode.tex?]

theorem includeImage_decides : Decides InlinesSettle fun c => includeImage c inv := by
  unfold includeImage
  split
  · exact decides_none
  · apply decides_inlines
    simp [inlineNodes, Inline.inner, TreeNode.tex?]

theorem oeis_decides : Decides InlinesSettle fun c => oeis c inv := by
  apply decides_inlines
  simp [inlineNodes, Inline.inner, TreeNode.tex?]

theorem fileLink_decides : Decides InlinesSettle fun c => fileLink c inv :=
  .inr fun _ hc => ensures_bind_pure (hc.inlines _) fun _ _ hn => inlinesSettle_of_inner hn rfl

theorem hyperref_decides : Decides InlinesSettle fun c => hyperref c inv := by
  unfold hyperref
  simp only
  split
  · exact decides_none
  · exact .inr fun _ hc =>
      ensures_bind_pure (hc.inlines _) fun _ _ hn => inlinesSettle_of_inner hn rfl

theorem reference_decides : Decides InlinesSettle fun c => reference c inv := by
  unfold reference
  split
  · exact decides_none
  · apply decides_inlines
    simp [inlineNodes, Inline.inner, TreeNode.tex?]

theorem label_decides : Decides InlinesSettle fun c => label c inv := by
  unfold label
  split
  · exact decides_none
  · apply decides_inlines
    simp [inlineNodes, Inline.inner, TreeNode.tex?]

theorem enquote_decides : Decides InlinesSettle fun c => enquote c inv :=
  .inr fun _ hc => ensures_bind_pure (hc.inlines _) fun _ _ hn => inlinesSettle_of_inner hn rfl

/-- The links of a citation hold no page source. -/
theorem citeLinks_no_tex (c : FormContext) (keys : List Text) :
    (citeLinks c keys).Ensures fun links _ =>
      ∀ link ∈ links, TexAll (fun _ => False) (.inline link :: link.inner) := by
  induction keys with
  | nil => exact ensures_pure (by simp)
  | cons key more ih =>
    have hlink : (citeLink c key).Ensures fun link _ =>
        TexAll (fun _ => False) (.inline link :: link.inner) := by
      refine ensures_bind (P := fun _ _ => True) (fun _ _ _ _ _ => trivial) fun text _ _ => ?_
      refine ensures_bind_pure (ensures_note (P := fun _ _ => True) trivial) fun _ _ _ => ?_
      simp [inlineNodes, Inline.inner, TreeNode.tex?]
    refine ensures_bind hlink fun link _ hlink => ?_
    exact ensures_bind_pure ih fun links _ hlinks => List.forall_mem_cons.2 ⟨hlink, hlinks⟩

theorem citeNote_settles {c : FormContext} (hc : c.Settling) (optional : Option Text) :
    (citeNote c optional).Ensures InlinesSettle := by
  unfold citeNote
  simp only
  split
  · exact ensures_pure (settles_of_no_tex texAll_nil {})
  · refine ensures_bind_pure (hc.inlines _) fun content n hn => ?_
    have hcomma : InlinesSettle [.text ", "] {} :=
      inlinesSettle_of_inner (settles_of_no_tex texAll_nil {}) rfl
    have hall := settle_treeRules.moreInlines hn hcomma
    rwa [Notes.combine_empty] at hall

theorem cite_decides : Decides InlinesSettle fun c => cite c inv := by
  unfold cite
  simp only
  split
  · exact decides_none
  · refine .inr fun c hc => ensures_bind (citeNote_settles hc _) fun note m hm => ?_
    refine ensures_bind_pure (citeLinks_no_tex c _) fun links n hn => ?_
    have htext (t : Text) : TexAll (fun _ => False) (inlineNodes [.text t]) := by
      simp [inlineNodes, Inline.inner, TreeNode.tex?]
    have hlinks : TexAll (fun _ => False) (inlineNodes (links.intersperse (.text ", "))) := by
      refine forall_mem_inlineNodes.2 fun node hnode => ?_
      rcases mem_intersperse hnode with rfl | hnode
      · simp [Inline.inner, TreeNode.tex?]
      · exact hn node hnode
    have hopen : InlinesSettle [.text "["] {} := settles_of_no_tex (htext _) {}
    have hclose : InlinesSettle [.text "]"] {} := settles_of_no_tex (htext _) {}
    have hmiddle : InlinesSettle (links.intersperse (.text ", ")) n := settles_of_no_tex hlinks n
    have hall := settle_treeRules.moreInlines (settle_treeRules.moreInlines
      (settle_treeRules.moreInlines hopen hm) hmiddle) hclose
    rw [Notes.empty_combine, Notes.combine_empty, List.singleton_append] at hall
    exact inlinesSettle_of_inner hall rfl

theorem inlineSpace_decides : Decides InlinesSettle fun c => inlineSpace c inv := by
  refine .inr fun c _ => ensures_bind_pure (ensures_report (P := fun _ _ => True) trivial)
    fun _ n _ => ?_
  exact inlinesSettle_of_inner (settles_of_no_tex texAll_nil n) rfl

/-- A table in running text keeps its source, but not as page source. -/
theorem inlineTable_decides : Decides InlinesSettle fun c => inlineTable c inv := by
  refine .inr fun c _ => ensures_bind_pure (ensures_report (P := fun _ _ => True) trivial)
    fun _ n _ => settles_of_no_tex ?_ n
  simp [classed, inlineNodes, Inline.inner, TreeNode.tex?]

theorem topicCard_decides : Decides InlinesSettle fun c => topicCard c inv := by
  unfold topicCard
  simp only
  split
  · exact decides_none
  · refine .inr fun c hc => ensures_bind (hc.inlines _) fun title m hm => ?_
    refine ensures_bind_pure (P := fun _ _ => True) (fun _ _ _ _ _ => trivial)
      fun description n _ => ?_
    have htitle : InlinesSettle title (m.combine n) := Settles.before hm n
    have hspan : InlinesSettle [classed ["topic-card-title"] title] (m.combine n) :=
      inlinesSettle_of_inner htitle rfl
    exact inlinesSettle_of_inner (Settles.cons hspan rfl) rfl

theorem todo_decides : Decides InlinesSettle fun c => todo c inv := by
  refine .inr fun c _ => ensures_bind_pure (ensures_note (P := fun _ _ => True) trivial)
    fun _ n _ => ?_
  exact settles_of_no_tex texAll_nil n

theorem blockSpace_decides : Decides BlocksSettle fun c => blockSpace c inv := by
  apply decides_blocks
  simp [blockNodes, Block.inner, TreeNode.tex?]

theorem pageMeta_decides : Decides BlocksSettle fun c => pageMeta c inv := by
  refine .inr fun c _ => ensures_bind (P := fun _ _ => True) (fun _ _ _ _ _ => trivial)
    fun value m _ => ?_
  refine ensures_bind_pure (ensures_note (P := fun _ _ => True) trivial) fun _ n _ => ?_
  exact settles_of_no_tex texAll_nil (m.combine n)

theorem styleRules_decides : Decides BlocksSettle fun c => styleRules c inv := by
  refine .inr fun c _ => ensures_bind_pure (ensures_note (P := fun _ _ => True) trivial)
    fun _ n _ => ?_
  exact settles_of_no_tex texAll_nil n

theorem specialBlock_decides : Decides BlocksSettle fun c => specialBlock c inv := by
  unfold specialBlock
  split
  · apply decides_blocks
    simp [blockNodes, Block.inner, TreeNode.tex?]
  · exact decides_none

theorem blockQuote_decides : Decides BlocksSettle fun c => blockQuote c inv :=
  .inr fun _ hc => ensures_bind_pure (hc.blocks _) fun _ _ hn => blocksSettle_of_inner hn rfl

theorem boxTitle_settles {c : FormContext} (hc : c.Settling) (optional : Option Text) :
    (boxTitle c optional).Ensures InlinesSettle := by
  unfold boxTitle
  simp only
  split
  · exact ensures_pure (settles_of_no_tex texAll_nil {})
  · refine ensures_bind_pure (hc.inlines _) fun content n hn => ?_
    have htext (t : Text) : InlinesSettle [.text t] {} :=
      inlinesSettle_of_inner (settles_of_no_tex texAll_nil {}) rfl
    have hall := settle_treeRules.moreInlines
      (settle_treeRules.moreInlines (htext " (") hn) (htext ")")
    rwa [Notes.empty_combine, Notes.combine_empty, List.singleton_append] at hall

theorem theoremBox_decides : Decides BlocksSettle fun c => theoremBox c inv := by
  refine .inr fun c hc => ensures_bind (boxTitle_settles hc _) fun title m hm => ?_
  refine ensures_bind_pure (hc.blocks _) fun content n hn => ?_
  have hname : InlinesSettle [.styled .strong [.text (capitalize inv.name)]] {} := by
    refine settles_of_no_tex ?_ {}
    simp [inlineNodes, Inline.inner, TreeNode.tex?]
  have hheading := settle_treeRules.para (settle_treeRules.moreInlines hname hm)
  have hall := settle_treeRules.moreBlocks hheading hn
  rw [Notes.empty_combine] at hall
  exact blocksSettle_of_inner hall rfl

theorem family_decides : Decides BlocksSettle fun c => family c inv := by
  unfold family
  simp only
  split
  · exact decides_none
  · refine .inr fun c hc => ensures_bind (hc.inlines _) fun title m hm => ?_
    refine ensures_bind_pure (ensures_note (P := fun _ _ => True) trivial) fun _ n _ => ?_
    have htitle : InlinesSettle title (m.combine n) := Settles.before hm n
    exact blocksSettle_of_inner htitle rfl

theorem polydata_decides : Decides BlocksSettle fun c => polydata c inv := by
  unfold polydata
  split
  · exact decides_none
  · refine .inr fun c _ => ensures_bind_pure (ensures_note (P := fun _ _ => True) trivial)
      fun _ n _ => ?_
    exact settles_of_no_tex texAll_nil n

theorem figure_decides : Decides BlocksSettle fun c => figure c inv :=
  .inr fun _ hc => ensures_bind_pure (hc.blocks _) fun _ _ hn => blocksSettle_of_inner hn rfl

theorem topicSection_decides : Decides BlocksSettle fun c => topicSection c inv := by
  refine .inr fun c hc => ensures_bind (hc.inlines _) fun title m hm => ?_
  refine ensures_bind_pure (hc.blocks _) fun cards n hn => ?_
  have hheader : BlocksSettle [.header 2 (.ofClasses ["topic-section"]) title] m :=
    blocksSettle_of_inner hm rfl
  have hgrid : BlocksSettle [.div (.ofClasses ["topic-card-grid"]) cards] n :=
    blocksSettle_of_inner hn rfl
  exact settle_treeRules.moreBlocks hheader hgrid

/-- Neither is the source of a table page source. -/
theorem table_decides : Decides BlocksSettle fun c => table c inv := by
  apply decides_blocks
  simp [blockNodes, Block.inner, TreeNode.tex?]

end

theorem inlineForms_decide : ∀ form ∈ inlineForms, ∀ inv,
    Decides InlinesSettle fun c => form.expand c inv := by
  intro form hform inv
  simp only [inlineForms, List.mem_cons, List.not_mem_nil, or_false] at hform
  rcases hform with rfl | rfl | rfl | rfl | rfl | rfl | rfl | rfl | rfl | rfl | rfl | rfl | rfl |
    rfl
  · exact defin_decides
  · exact icon_decides
  · exact includeImage_decides
  · exact oeis_decides
  · exact fileLink_decides
  · exact hyperref_decides
  · exact reference_decides
  · exact label_decides
  · exact enquote_decides
  · exact cite_decides
  · exact inlineSpace_decides
  · exact inlineTable_decides
  · exact topicCard_decides
  · exact todo_decides

theorem blockForms_decide : ∀ form ∈ blockForms, ∀ inv,
    Decides BlocksSettle fun c => form.expand c inv := by
  intro form hform inv
  simp only [blockForms, List.mem_cons, List.not_mem_nil, or_false] at hform
  rcases hform with rfl | rfl | rfl | rfl | rfl | rfl | rfl | rfl | rfl | rfl | rfl | rfl | rfl
  · exact blockSpace_decides
  · exact pageMeta_decides
  · exact styleRules_decides
  · exact specialBlock_decides
  · exact blockQuote_decides
  · exact theoremBox_decides
  · exact family_decides
  · exact polydata_decides
  · exact figure_decides
  · exact topicSection_decides
  · exact table_decides
  · exact table_decides
  · exact table_decides

/-- Forms that decide their matches decide a text: none of them expands it in any context, or the
first that does not decline builds something settled. -/
theorem expandFirst_decides {Kind : Type} {P : List Kind → Notes → Prop} {forms : List (Form Kind)}
    (hforms : ∀ form ∈ forms, ∀ inv, Decides P fun c => form.expand c inv) (text : Text) :
    Decides P fun c => expandFirst c text forms := by
  induction forms with
  | nil => exact decides_none
  | cons form more ih =>
    have ih := ih fun form hform => hforms form (List.mem_cons_of_mem _ hform)
    cases hmatch : form.pattern.match? text with
    | none =>
      simp only [expandFirst, hmatch]
      exact ih
    | some inv =>
      simp only [expandFirst, hmatch]
      rcases hforms form (List.mem_cons_self ..) inv with hdeclines | hexpands
      · simp only [hdeclines, pure_bind]
        exact ih
      · refine .inr fun c hc => ensures_bind (hexpands c hc) fun nodes? m hm => ?_
        cases nodes? with
        | none => exact hm.elim
        | some nodes =>
          apply ensures_pure
          rw [Notes.combine_empty]
          exact hm

theorem expandFirst_settles {Kind : Type} {P : List Kind → Notes → Prop} {forms : List (Form Kind)}
    (hforms : ∀ form ∈ forms, ∀ inv, Decides P fun c => form.expand c inv) (text : Text)
    {c : FormContext} (hc : c.Settling) :
    (expandFirst c text forms).Ensures (Made P fun _ => Passed forms text) := by
  rcases expandFirst_decides hforms text with hpassed | hexpands
  · have hnone : expandFirst c text forms = Pure.pure none := hpassed c
    rw [hnone]
    exact ensures_pure hpassed
  · refine (hexpands c hc).mono fun nodes? n hn => ?_
    cases nodes? with
    | none => exact hn.elim
    | some nodes => exact hn

end Form

/-- Whatever blocks are walked, the page source that is left is settled. -/
theorem walkAll_settles (stem : Text) (bib : Bibliography) (blocks : List Block) :
    (walkAll stem bib blocks).Ensures BlocksSettle := by
  have hnone : Settles [] {} := settles_of_no_tex texAll_nil {}
  -- not by the levels of the expander: at the innermost one known macros are left unexpanded
  have hmakes : Expander.Makes InlinesSettle BlocksSettle
      (fun text _ => Form.Passed Form.inlineForms text)
      (.full Form.vocabulary (sourceContext stem bib)) := by
    refine full_makes_of_shorter hnone hnone settle_expansionRules fun inner hinner text => ?_
    have hc : (Expander.formContext (sourceContext stem bib) inner).Settling :=
      ⟨formContext_blocks_ensures settle_treeRules (fun _ _ => trivial) hinner,
        formContext_inlines_ensures settle_treeRules (fun _ _ => trivial) hinner⟩
    exact ⟨Form.expandFirst_settles Form.inlineForms_decide text hc,
      Form.expandFirst_settles Form.blockForms_decide text hc⟩
  exact walkBlocks_ensures settle_treeRules hmakes blocks fun _ _ => trivial

/-- No macro that a form knows survives a walk: page source that is left in running text is expanded
by no form of running text, page source that is left in a block by no form at all, and every raw
node that is left has been warned of. -/
theorem no_known_macro_survives (stem : Text) (bib : Bibliography) (blocks : List Block)
    (files files' : Store) (page : Walked)
    (h : walkDocument (sourceContext stem bib) blocks files = (.ok page, files')) :
    (∀ (format : Format) (text : Text), format.isTex →
        TreeNode.inline (.raw format text) ∈ blockNodes page.artifact.blocks →
        Form.Passed Form.inlineForms text) ∧
      (∀ (format : Format) (text : Text), format.isTex →
        TreeNode.block (.raw format text) ∈ blockNodes page.artifact.blocks →
        Form.Passed Form.blockForms text ∧ Form.Passed Form.inlineForms text) ∧
      (blockNodes page.artifact.blocks).countP (·.tex?.isSome) ≤
        page.diagnostics.countP Diagnostic.isUnrecognized := by
  have hsettles := ((walkAll_settles stem bib blocks).finish h).2
  refine ⟨fun format text htex hnode => ?_, fun format text htex hnode => ?_, hsettles.warned⟩
  · exact hsettles.settled _ hnode htex
  · exact hsettles.settled _ hnode htex

/-- A quotation in which a known macro has an unknown one in its argument, and an unknown block. -/
def unknownMacros : List Block :=
  [.quote [.para [.text "See ", .raw .tex "\\defin\x7b\\nowhere\x7d"], .raw .tex "\\newpage"]]

/-- Two unknown macros are left, and there are two warnings. -/
theorem walkDocument_unknownMacros : ∃ page files',
    walkDocument (sourceContext "page" ∅) unknownMacros .empty = (.ok page, files') ∧
      (blockNodes page.artifact.blocks).countP (·.tex?.isSome) = 2 ∧
      2 ≤ page.diagnostics.countP Diagnostic.isUnrecognized := by
  have hwalk : (match (walkDocument (sourceContext "page" ∅) unknownMacros .empty).1 with
    | .ok page => (blockNodes page.artifact.blocks).countP (·.tex?.isSome) == 2
    | .error _ => false) = true := by decide +kernel
  rcases hpage : walkDocument (sourceContext "page" ∅) unknownMacros .empty with ⟨r, files'⟩
  rw [hpage] at hwalk
  cases r with
  | error e => cases hwalk
  | ok page =>
    have hcount : (blockNodes page.artifact.blocks).countP (·.tex?.isSome) = 2 :=
      beq_iff_eq.1 hwalk
    have hwarned := (no_known_macro_survives _ _ _ _ _ _ hpage).2.2
    rw [hcount] at hwarned
    exact ⟨page, files', rfl, hcount, hwarned⟩

end TexCatalog
