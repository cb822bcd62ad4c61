import Mathlib.Data.List.Forall2
import TexCatalog.Proofs.TreeNodes
import TexCatalog.Proofs.WalkRules

/-!
# Relations that all forms keep

A form is built from the operations of a walk and from what it asks of the walk around it. So a
relation between walks that these operations keep is kept by every form, and then by the expanders
and by the walk of a tree. What a relation says is proved of the operations once.
-/

namespace TexCatalog

/-- Of related rows, every member of the second is related to one of the first. -/
theorem exists_of_mem_right {α β : Type} {R : α → β → Prop} {as : List α} {bs : List β}
    (h : List.Forall₂ R as bs) {b : β} (hb : b ∈ bs) : ∃ a ∈ as, R a b := by
  induction h with
  | nil => cases hb
  | @cons a c as bs hac _ ih =>
    rcases List.mem_cons.1 hb with rfl | hb
    · exact ⟨a, List.mem_cons_self .., hac⟩
    · obtain ⟨a', ha', hab⟩ := ih hb
      exact ⟨a', List.mem_cons_of_mem _ ha', hab⟩

/-- A relation between walks that the operations of a walk keep, labels of entries of `bib` taken
among them. -/
structure Walk.Congruence (bib : Bibliography) (R : ∀ {α : Type}, Walk α → Walk α → Prop) :
    Prop where
  pure {α : Type} (a : α) : R (Pure.pure a) (Pure.pure a)
  bind {α β : Type} {x y : Walk α} {f g : α → Walk β} :
    R x y → (∀ a, R (f a) (g a)) → R (x >>= f) (y >>= g)
  note (f : Findings) : R (.note f) (.note f)
  report (d : Diagnostic) : R (.report d) (.report d)
  label {key : Text} {e : Entry} : bib.get? key = some e →
    R (.ofExcept (Bibliography.displayLabel e)) (.ofExcept (Bibliography.displayLabel e))

structure Invocation.Within (asks : Text → Prop) (inv : Invocation) : Prop where
  arg (i : Nat) : asks (inv.arg i)
  optional : asks (Text.trim (inv.optional.getD []))
  body : asks inv.body

theorem Invocation.within_true (inv : Invocation) : inv.Within fun _ => True :=
  ⟨fun _ => trivial, trivial, trivial⟩

structure FormContext.Related (bib : Bibliography) (R : ∀ {α : Type}, Walk α → Walk α → Prop)
    (asks : Text → Prop) (c d : FormContext) : Prop where
  stem : c.stem = d.stem
  left : c.bibliography = bib
  right : d.bibliography = bib
  plainText {text : Text} : asks text → R (c.plainText text) (d.plainText text)
  blocks {text : Text} : asks text → R (c.blocks text) (d.blocks text)
  inlines {text : Text} : asks text → R (c.inlines text) (d.inlines text)

def Form.Related (R : ∀ {α : Type}, Walk α → Walk α → Prop) (asks : Text → Prop)
    (c d : FormContext) {Kind : Type} (f g : Form Kind) : Prop :=
  f.pattern = g.pattern ∧ ∀ inv : Invocation, inv.Within asks → R (f.expand c inv) (g.expand d inv)

namespace Form

section

variable {bib : Bibliography} {R : ∀ {α : Type}, Walk α → Walk α → Prop} {asks : Text → Prop}
  {c d : FormContext} (hR : Walk.Congruence bib R) (hc : FormContext.Related bib R asks c d)

include hR hc

theorem citeText_related (key : Text) : R (citeText c key) (citeText d key) := by
  unfold citeText FormContext.error
  rw [hc.left, hc.right, hc.stem]
  split
  · next e he => exact hR.label he
  · exact hR.bind (hR.report _) fun _ => hR.pure _

theorem citeLink_related (key : Text) : R (citeLink c key) (citeLink d key) :=
  hR.bind (citeText_related hR hc key) fun _ => hR.bind (hR.note _) fun _ => hR.pure _

theorem citeLinks_related (keys : List Text) : R (citeLinks c keys) (citeLinks d keys) := by
  induction keys with
  | nil => exact hR.pure _
  | cons key more ih =>
    exact hR.bind (citeLink_related hR hc key) fun _ => hR.bind ih fun _ => hR.pure _

theorem inlineSpace_related (inv : Invocation) : R (inlineSpace c inv) (inlineSpace d inv) := by
  unfold inlineSpace FormContext.warn
  rw [hc.stem]
  exact hR.bind (hR.report _) fun _ => hR.pure _

theorem inlineTable_related (inv : Invocation) : R (inlineTable c inv) (inlineTable d inv) := by
  unfold inlineTable FormContext.warn
  rw [hc.stem]
  exact hR.bind (hR.report _) fun _ => hR.pure _

variable {inv : Invocation} (hinv : inv.Within asks)

include hinv

theorem defin_related : R (defin c inv) (defin d inv) :=
  hR.bind (hc.inlines (hinv.arg 0)) fun _ => hR.pure _

theorem fileLink_related : R (fileLink c inv) (fileLink d inv) :=
  hR.bind (hc.inlines (hinv.arg 1)) fun _ => hR.pure _

theorem hyperref_related : R (hyperref c inv) (hyperref d inv) := by
  unfold hyperref
  simp only
  split
  · exact hR.pure _
  · exact hR.bind (hc.inlines (hinv.arg 0)) fun _ => hR.pure _

theorem enquote_related : R (enquote c inv) (enquote d inv) :=
  hR.bind (hc.inlines (hinv.arg 0)) fun _ => hR.pure _

theorem citeNote_related : R (citeNote c inv.optional) (citeNote d inv.optional) := by
  unfold citeNote
  simp only
  split
  · exact hR.pure _
  · exact hR.bind (hc.inlines hinv.optional) fun _ => hR.pure _

theorem cite_related : R (cite c inv) (cite d inv) := by
  unfold cite
  simp only [hc.left, hc.right]
  split
  · exact hR.pure _
  · exact hR.bind (citeNote_related hR hc hinv) fun _ =>
      hR.bind (citeLinks_related hR hc _) fun _ => hR.pure _

theorem topicCard_related : R (topicCard c inv) (topicCard d inv) := by
  unfold topicCard
  simp only
  split
  · exact hR.pure _
  · exact hR.bind (hc.inlines (hinv.arg 1)) fun _ =>
      hR.bind (hc.inlines (hinv.arg 2)) fun _ => hR.pure _

theorem pageMeta_related : R (pageMeta c inv) (pageMeta d inv) :=
  hR.bind (hc.plainText (hinv.arg 0)) fun _ => hR.bind (hR.note _) fun _ => hR.pure _

theorem blockQuote_related : R (blockQuote c inv) (blockQuote d inv) :=
  hR.bind (hc.blocks hinv.body) fun _ => hR.pure _

theorem boxTitle_related : R (boxTitle c inv.optional) (boxTitle d inv.optional) := by
  unfold boxTitle
  simp only
  split
  · exact hR.pure _
  · exact hR.bind (hc.inlines hinv.optional) fun _ => hR.pure _

theorem theoremBox_related : R (theoremBox c inv) (theoremBox d inv) :=
  hR.bind (boxTitle_related hR hc hinv) fun _ =>
    hR.bind (hc.blocks hinv.body) fun _ => hR.pure _

theorem family_related : R (family c inv) (family d inv) := by
  unfold family
  simp only
  split
  · exact hR.pure _
  · exact hR.bind (hc.inlines (hinv.arg 0)) fun _ =>
      hR.bind (hR.note _) fun _ => hR.pure _

theorem figure_related : R (figure c inv) (figure d inv) :=
  hR.bind (hc.blocks hinv.body) fun _ => hR.pure _

theorem topicSection_related : R (topicSection c inv) (topicSection d inv) :=
  hR.bind (hc.inlines (hinv.arg 0)) fun _ => hR.bind (hc.blocks hinv.body) fun _ => hR.pure _

omit hinv

theorem inlineForms_related : List.Forall₂ (Form.Related R asks c d) inlineForms inlineForms := by
  refine .cons ⟨rfl, fun _ => defin_related hR hc⟩ ?_
  refine .cons ⟨rfl, fun _ _ => hR.pure _⟩ ?_
  refine .cons ⟨rfl, fun inv _ => ?_⟩ ?_
  · change R (includeImage c inv) (includeImage d inv)
    unfold includeImage
    split <;> exact hR.pure _
  refine .cons ⟨rfl, fun _ _ => hR.pure _⟩ ?_
  refine .cons ⟨rfl, fun _ => fileLink_related hR hc⟩ ?_
  refine .cons ⟨rfl, fun _ => hyperref_related hR hc⟩ ?_
  refine .cons ⟨rfl, fun inv _ => ?_⟩ ?_
  · change R (reference c inv) (reference d inv)
    unfold reference
    split <;> exact hR.pure _
  refine .cons ⟨rfl, fun inv _ => ?_⟩ ?_
  · change R (label c inv) (label d inv)
    unfold label
    split <;> exact hR.pure _
  refine .cons ⟨rfl, fun _ => enquote_related hR hc⟩ ?_
  refine .cons ⟨rfl, fun _ => cite_related hR hc⟩ ?_
  refine .cons ⟨rfl, fun inv _ => inlineSpace_related hR hc inv⟩ ?_
  refine .cons ⟨rfl, fun inv _ => inlineTable_related hR hc inv⟩ ?_
  refine .cons ⟨rfl, fun _ => topicCard_related hR hc⟩ ?_
  exact .cons ⟨rfl, fun _ _ => hR.bind (hR.note _) fun _ => hR.pure _⟩ .nil

theorem blockForms_related : List.Forall₂ (Form.Related R asks c d) blockForms blockForms := by
  refine .cons ⟨rfl, fun _ _ => hR.pure _⟩ ?_
  refine .cons ⟨rfl, fun _ => pageMeta_related hR hc⟩ ?_
  refine .cons ⟨rfl, fun _ _ => hR.bind (hR.note _) fun _ => hR.pure _⟩ ?_
  refine .cons ⟨rfl, fun inv _ => ?_⟩ ?_
  · change R (specialBlock c inv) (specialBlock d inv)
    unfold specialBlock
    split <;> exact hR.pure _
  refine .cons ⟨rfl, fun _ => blockQuote_related hR hc⟩ ?_
  refine .cons ⟨rfl, fun _ => theoremBox_related hR hc⟩ ?_
  refine .cons ⟨rfl, fun _ => family_related hR hc⟩ ?_
  refine .cons ⟨rfl, fun inv _ => ?_⟩ ?_
  · change R (polydata c inv) (polydata d inv)
    unfold polydata
    split
    · exact hR.pure _
    · exact hR.bind (hR.note _) fun _ => hR.pure _
  refine .cons ⟨rfl, fun _ => figure_related hR hc⟩ ?_
  refine .cons ⟨rfl, fun _ => topicSection_related hR hc⟩ ?_
  refine .cons ⟨rfl, fun _ _ => hR.pure _⟩ ?_
  refine .cons ⟨rfl, fun _ _ => hR.pure _⟩ ?_
  exact .cons ⟨rfl, fun _ _ => hR.pure _⟩ .nil

omit hc in
/-- The first form that does not decline is the same on both sides. -/
theorem expandFirst_related {Kind : Type} {fs gs : List (Form Kind)}
    (h : List.Forall₂ (Form.Related R asks c d) fs gs) {text : Text}
    (hasks : ∀ (p : Pattern) (inv : Invocation), p.match? text = some inv → inv.Within asks) :
    R (expandFirst c text fs) (expandFirst d text gs) := by
  induction h with
  | nil => exact hR.pure _
  | @cons f g fs gs hfg _ ih =>
    unfold expandFirst
    rw [hfg.1]
    split
    · exact ih
    · next inv hmatch =>
      refine hR.bind (hfg.2 inv (hasks _ _ hmatch)) fun nodes? => ?_
      cases nodes? with
      | none => exact ih
      | some nodes => exact hR.pure _

end

end Form

/-- Two vocabularies whose forms are related wherever their contexts are. -/
structure Vocabulary.Related (bib : Bibliography) (R : ∀ {α : Type}, Walk α → Walk α → Prop)
    (v w : Vocabulary) : Prop where
  blocks {asks : Text → Prop} {c d : FormContext} : FormContext.Related bib R asks c d →
    List.Forall₂ (Form.Related R asks c d) v.blocks w.blocks
  inlines {asks : Text → Prop} {c d : FormContext} : FormContext.Related bib R asks c d →
    List.Forall₂ (Form.Related R asks c d) v.inlines w.inlines

theorem Form.vocabulary_related {bib : Bibliography} {R : ∀ {α : Type}, Walk α → Walk α → Prop}
    (hR : Walk.Congruence bib R) : Vocabulary.Related bib R Form.vocabulary Form.vocabulary :=
  ⟨Form.blockForms_related hR, Form.inlineForms_related hR⟩

/-- Two expanders that make related things of the texts of a class. -/
structure Expander.Related (R : ∀ {α : Type}, Walk α → Walk α → Prop) (raws : Text → Prop)
    (v w : Expander) : Prop where
  block {text : Text} : raws text → R (v.block text) (w.block text)
  inline {text : Text} : raws text → R (v.inline text) (w.inline text)

/-- A paragraph that is a single raw node has its text. -/
theorem TexAll.loneRaw {p : Text → Prop} {content : List Inline} {text : Text}
    (h : TexAll p (inlineNodes content)) (hlone : loneRaw? content = some text) : p text := by
  fun_induction loneRaw? content with
  | case1 => cases hlone
  | case2 more ih | case3 more ih =>
    rw [inlineNodes, texAll_append] at h
    exact ih h.2 hlone
  | case4 format t more hraw =>
    cases hlone
    rw [inlineNodes, texAll_append, texAll_cons] at h
    refine h.1.1 _ ?_
    simp only [TreeNode.tex?, (Bool.and_eq_true_iff.1 hraw).1]
    rfl
  | case5 => cases hlone
  | case6 => cases hlone

section

variable {bib : Bibliography} {R : ∀ {α : Type}, Walk α → Walk α → Prop} {stem : Text}
  {raws : Text → Prop} {v w : Expander} (hR : Walk.Congruence bib R)

include hR

theorem walkRaw_related {text : Text} (hvw : R (v.inline text) (w.inline text)) (format : Format) :
    R (walkRaw stem v format text) (walkRaw stem w format text) := by
  refine hR.bind hvw fun nodes? => ?_
  cases nodes? with
  | none => exact hR.bind (hR.report _) fun _ => hR.pure _
  | some nodes => exact hR.pure _

mutual

theorem walkInline_related (hvw : Expander.Related R raws v w) :
    ∀ node : Inline, TexAll raws (.inline node :: node.inner) →
      R (walkInline stem v node) (walkInline stem w node)
  | .raw format text, h => by
    rw [walkInline, walkInline]
    split
    · next htex =>
      refine walkRaw_related hR (hvw.inline ((texAll_cons.1 h).1 text ?_)) format
      rw [TreeNode.tex?, if_pos htex]
      rfl
    · exact hR.pure _
  | .link attr content target, h => by
    rw [walkInline, walkInline]
    exact hR.bind (walkInlines_related hvw content (texAll_cons.1 h).2) fun _ =>
      hR.bind (hR.note _) fun _ => hR.pure _
  | .span attr content, h => by
    rw [walkInline, walkInline]
    exact hR.bind (hR.note _) fun _ =>
      hR.bind (walkInlines_related hvw content (texAll_cons.1 h).2) fun _ => hR.pure _
  | .styled _ content, h | .quoted _ content, h | .image _ content _, h
  | .crossRef _ content _, h => by
    rw [walkInline, walkInline]
    exact hR.bind (walkInlines_related hvw content (texAll_cons.1 h).2) fun _ => hR.pure _
  | .note content, h => by
    rw [walkInline, walkInline]
    exact hR.bind (walkBlocks_related hvw content (texAll_cons.1 h).2) fun _ => hR.pure _
  | .text _, _ | .code .., _ | .space, _ | .softBreak, _ | .lineBreak, _ | .math .., _ => by
    rw [walkInline, walkInline]
    exact hR.pure _

theorem walkInlines_related (hvw : Expander.Related R raws v w) :
    ∀ nodes : List Inline, TexAll raws (inlineNodes nodes) →
      R (walkInlines stem v nodes) (walkInlines stem w nodes)
  | [], _ => by
    rw [walkInlines, walkInlines]
    exact hR.pure _
  | node :: more, h => by
    rw [inlineNodes, texAll_append] at h
    rw [walkInlines, walkInlines]
    exact hR.bind (walkInline_related hvw node h.1) fun _ =>
      hR.bind (walkInlines_related hvw more h.2) fun _ => hR.pure _

theorem walkBlock_related (hvw : Expander.Related R raws v w) :
    ∀ block : Block, TexAll raws (.block block :: block.inner) →
      R (walkBlock stem v block) (walkBlock stem w block)
  | .raw format text, h => by
    rw [walkBlock, walkBlock]
    split
    · next htex =>
      refine hvw.block ((texAll_cons.1 h).1 text ?_)
      rw [TreeNode.tex?, if_pos htex]
      rfl
    · exact hR.pure _
  | .para content, h => by
    have hcontent := (texAll_cons.1 h).2
    rw [walkBlock, walkBlock]
    split
    · next text hlone => exact hvw.block (hcontent.loneRaw hlone)
    · exact hR.bind (walkInlines_related hvw content hcontent) fun _ => hR.pure _
  | .plain content, h => by
    rw [walkBlock, walkBlock]
    exact hR.bind (walkInlines_related hvw content (texAll_cons.1 h).2) fun _ => hR.pure _
  | .header level attr content, h => by
    rw [walkBlock, walkBlock]
    exact hR.bind (hR.note _) fun _ =>
      hR.bind (walkInlines_related hvw content (texAll_cons.1 h).2) fun _ => hR.pure _
  | .div attr content, h => by
    rw [walkBlock, walkBlock]
    exact hR.bind (hR.note _) fun _ =>
      hR.bind (walkBlocks_related hvw content (texAll_cons.1 h).2) fun _ => hR.pure _
  | .quote content, h => by
    rw [walkBlock, walkBlock]
    exact hR.bind (walkBlocks_related hvw content (texAll_cons.1 h).2) fun _ => hR.pure _
  | .bullets items, h | .numbered _ items, h => by
    rw [walkBlock, walkBlock]
    exact hR.bind (walkItems_related hvw items (texAll_cons.1 h).2) fun _ => hR.pure _
  | .code .., _ | .rule, _ => by
    rw [walkBlock, walkBlock]
    exact hR.pure _

theorem walkBlocks_related (hvw : Expander.Related R raws v w) :
    ∀ blocks : List Block, TexAll raws (blockNodes blocks) →
      R (walkBlocks stem v blocks) (walkBlocks stem w blocks)
  | [], _ => by
    rw [walkBlocks, walkBlocks]
    exact hR.pure _
  | block :: more, h => by
    rw [blockNodes, texAll_append] at h
    rw [walkBlocks, walkBlocks]
    exact hR.bind (walkBlock_related hvw block h.1) fun _ =>
      hR.bind (walkBlocks_related hvw more h.2) fun _ => hR.pure _

theorem walkItems_related (hvw : Expander.Related R raws v w) :
    ∀ items : List (List Block), TexAll raws (itemNodes items) →
      R (walkItems stem v items) (walkItems stem w items)
  | [], _ => by
    rw [walkItems, walkItems]
    exact hR.pure _
  | item :: more, h => by
    rw [itemNodes, texAll_append] at h
    rw [walkItems, walkItems]
    exact hR.bind (walkBlocks_related hvw item h.1) fun _ =>
      hR.bind (walkItems_related hvw more h.2) fun _ => hR.pure _

end

end

section

variable {R : ∀ {α : Type}, Walk α → Walk α → Prop} {ctx : WalkContext} {v w : Vocabulary}
  (hR : Walk.Congruence ctx.bibliography R) (hvw : Vocabulary.Related ctx.bibliography R v w)

include hR hvw

section

variable {asks : Text → Prop} {inner inner' : Expander} {text : Text}
  (hc : FormContext.Related ctx.bibliography R asks (Expander.formContext ctx inner)
    (Expander.formContext ctx inner'))
  (hasks : ∀ (p : Pattern) (inv : Invocation), p.match? text = some inv → inv.Within asks)

include hc hasks

theorem expandInline_related : R (Expander.expandInline v ctx inner text)
    (Expander.expandInline w ctx inner' text) := by
  refine hR.bind (Form.expandFirst_related hR (hvw.inlines hc) hasks) fun nodes? => ?_
  cases nodes? with
  | none => exact hR.pure _
  | some nodes => exact hR.bind (hR.note _) fun _ => hR.pure _

theorem expandBlock_related : R (Expander.expandBlock v ctx inner text)
    (Expander.expandBlock w ctx inner' text) := by
  refine hR.bind (Form.expandFirst_related hR (hvw.blocks hc) hasks) fun blocks? => ?_
  cases blocks? with
  | some blocks => exact hR.bind (hR.note _) fun _ => hR.pure _
  | none =>
    refine hR.bind (expandInline_related hR hvw hc hasks) fun nodes? => ?_
    match nodes? with
    | some [] => exact hR.pure _
    | some (_ :: _) => exact hR.pure _
    | none => exact hR.bind (hR.report _) fun _ => hR.pure _

end

variable (hread : ∀ text, R (ctx.read text) (ctx.read text))

include hread

omit hvw in
theorem formContext_related {inner inner' : Expander}
    (h : Expander.Related R (fun _ => True) inner inner') :
    FormContext.Related ctx.bibliography R (fun _ => True) (Expander.formContext ctx inner)
      (Expander.formContext ctx inner') where
  stem := rfl
  left := rfl
  right := rfl
  plainText {text} _ := hR.bind (hread text) fun _ => hR.pure _
  blocks {text} _ := hR.bind (hread text) fun _ =>
    walkBlocks_related hR h _ fun _ _ _ _ => trivial
  inlines {text} _ := hR.bind (hread text) fun _ =>
    walkInlines_related hR h _ fun _ _ _ _ => trivial

theorem ofDepth_related (depth : Nat) : Expander.Related R (fun _ => True)
    (Expander.ofDepth v ctx depth) (Expander.ofDepth w ctx depth) := by
  induction depth with
  | zero => exact ⟨fun _ => hR.bind (hR.report _) fun _ => hR.pure _, fun _ => hR.pure _⟩
  | succ depth ih =>
    have hc := formContext_related hR hread ih
    exact ⟨fun _ => expandBlock_related hR hvw hc fun _ inv _ => inv.within_true,
      fun _ => expandInline_related hR hvw hc fun _ inv _ => inv.within_true⟩

/-- Expanders of related vocabularies are related. -/
theorem full_related :
    Expander.Related R (fun _ => True) (Expander.full v ctx) (Expander.full w ctx) :=
  ⟨fun h => (ofDepth_related hR hvw hread _).block h,
    fun h => (ofDepth_related hR hvw hread _).inline h⟩

end

end TexCatalog
