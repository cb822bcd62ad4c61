import TexCatalog.Proofs.PatternMatches
import TexCatalog.Proofs.ShownLabels

/-!
# The labels of a page

The walk of a page with quiet topic cards: from the forms to the expanders, level by level, and from
these to the tree of the reader.
-/

namespace TexCatalog

open Findings Walk

namespace Form

/-- Of the forms that are tried, all but the last decline, and leave no labels behind. -/
theorem expandFirst_made {Kind : Type} {P : List Kind → Notes → Prop} {c : FormContext}
    (hP : ∀ nodes (m n : Notes), Unlabelled m → P nodes n → P nodes (m.combine n))
    {forms : List (Form Kind)}
    (hforms : ∀ form ∈ forms, ∀ inv, inv.name ∈ form.pattern.names →
      (form.expand c inv).Ensures (Made P Unlabelled)) (text : Text) :
    (expandFirst c text forms).Ensures (Made P Unlabelled) := by
  induction forms with
  | nil => exact declines
  | cons form more ih =>
    have ih := ih fun form hform => hforms form (List.mem_cons_of_mem _ hform)
    unfold expandFirst
    split
    · exact ih
    · next inv hinv =>
      refine ensures_bind (hforms form (List.mem_cons_self ..) inv (Pattern.match?_name hinv))
        fun nodes? m hm => ?_
      cases nodes? with
      | none =>
        refine ih.mono fun nodes? n hn => ?_
        cases nodes? with
        | none => exact hm.combine hn
        | some nodes => exact hP nodes m n hm hn
      | some nodes =>
        apply ensures_pure
        rw [Notes.combine_empty]
        exact hm

end Form

theorem InlinesKept.behind {m n : Notes} {nodes : List Inline} (hm : Unlabelled m)
    (h : InlinesKept nodes n) : InlinesKept nodes (m.combine n) :=
  h.noted fun l hl => .inl ((mem_labels_combine.1 hl).resolve_left (hm l))

theorem BlocksKept.behind {m n : Notes} {blocks : List Block} (hm : Unlabelled m)
    (h : BlocksKept blocks n) : BlocksKept blocks (m.combine n) :=
  h.noted fun l hl => .inl ((mem_labels_combine.1 hl).resolve_left (hm l))

/-- A link shows its content also where it has become a reference. -/
theorem InlinesKept.resolveLink {content : List Inline} {n : Notes} (h : InlinesKept content n)
    (attr : Attr) (target : Target) : InlinesKept [resolveLink attr content target] n := by
  unfold TexCatalog.resolveLink
  split
  · split
    · exact h.crossRef _ _
    · exact h.link attr target
  · exact h.link attr target

/-- A walk keeps the labels of the reader's headings and finds no others by itself. -/
theorem kept_sourceRules :
    SourceRules InlinesKept BlocksKept ItemsKept fun _ n => Unlabelled n where
  noInlines := inlinesKept_of_not_mem unlabelled_empty (by simp [observeInlines])
  moreInlines ha hb := ha.append hb
  inlineLeaf {node} _ hleaf := by
    refine inlinesKept_of_not_mem unlabelled_empty ?_
    cases node <;> first | exact hleaf.elim | simp [observeInlines, observeInline]
  unrecognized _ _ hm := by
    refine inlinesKept_of_not_mem (hm.combine unlabelled_empty) ?_
    simp [observeInlines, observeInline]
  styled style h := h.styled style
  quoted h _ := h.elim
  link {attr _ _ target _} _ h := by
    refine (h.resolveLink attr target).noted fun l hl => .inl ?_
    exact (mem_labels_combine.1 hl).resolve_right not_mem_labels_linkFindings
  image h _ := h.elim
  span h _ := h.elim
  crossRef h _ := h.elim
  note h _ := h.elim
  noBlocks := blocksKept_of_not_mem unlabelled_empty (by simp [observeBlocks])
  moreBlocks ha hb := ha.append hb
  blockLeaf {block} _ hleaf := by
    refine blocksKept_of_not_mem unlabelled_empty ?_
    cases block <;> first | exact hleaf.elim | simp [observeBlocks, observeBlock]
  para h := h.para
  plain h _ := h.elim
  header level attr h := by
    refine (h.header level attr).noted fun l hl => ?_
    refine (mem_labels_combine.1 hl).symm.imp_right fun hl => ?_
    rw [observeBlocks, observeBlock, mem_labels_combine, mem_labels_combine]
    exact .inl (.inl hl)
  quote h _ := h.elim
  div h _ := h.elim
  noItems := by
    intro l hl
    simp [observeItems] at hl
  moreItems ha hb := .cons ha hb
  bullets h := h.bullets
  numbered numbering h := h.numbered numbering

/-- Looking through what a form has built finds only labels that stand there. -/
theorem kept_expansionRules :
    ExpansionRules InlinesKept BlocksKept InlinesKept BlocksKept (fun _ n => Unlabelled n)
      fun _ n => Unlabelled n where
  observedInlines h := h.noted fun _ hl => mem_labels_combine.1 hl
  observedBlocks h := h.noted fun _ hl => mem_labels_combine.1 hl
  behind hm h := h.behind hm
  emptied {n} h := by
    refine blocksKept_of_not_mem (fun l hl => ?_) (by simp [observeBlocks])
    simpa [shownInlines] using h l (.inl hl)
  paragraph h := h.para
  unexpanded _ hm hn := by
    refine blocksKept_of_not_mem (hm.combine (hn.combine unlabelled_empty)) ?_
    simp [observeBlocks, observeBlock]

theorem formContext_keeps {stem : Text} {bib : Bibliography} {inner : Expander}
    (hinner : Expander.Makes InlinesKept BlocksKept (fun _ n => Unlabelled n) inner) :
    (Expander.formContext (sourceContext stem bib) inner).Keeps where
  plainText _ := ensures_bind_pure (ensures_read (P := fun _ n => Unlabelled n) unlabelled_empty)
    fun _ _ hn => hn
  blocks := formContext_blocks_ensures kept_sourceRules (fun _ h => h) hinner
  inlines := formContext_inlines_ensures kept_sourceRules (fun _ h => h) hinner

/-- With quiet topic cards every label that is found on a page has an anchor there. -/
theorem walkPage_keeps (stem : Text) (bib : Bibliography) (source : Text) :
    (walkPage Form.quietVocabulary (sourceContext stem bib) source).Ensures BlocksKept := by
  refine walkPage_ensures kept_sourceRules (full_makes kept_expansionRules
    (fun _ => unlabelled_empty) (fun _ => unlabelled_empty) fun inner hinner text => ?_) source
  have hc : (Expander.formContext (sourceContext stem bib) inner).Keeps := formContext_keeps hinner
  constructor
  · exact Form.expandFirst_made (fun _ _ _ hm hn => hn.behind hm)
      (fun form hform inv _ => Form.inlineForms_keep hc inv hform) text
  · exact Form.expandFirst_made (fun _ _ _ hm hn => hn.behind hm)
      (fun form hform inv => Form.blockForms_keep hc inv hform) text

end TexCatalog
