import TexCatalog.Proofs.SourceNodes
import TexCatalog.Proofs.WalkRules

/-!
# What a walk keeps

The walk of a tree, gone through once: a condition on nodes and notes that holds of the small steps,
and of what the expander makes of raw texts, holds of the walk of a whole tree. The trees of the
reader have only some kinds of nodes, and then only the steps for these have to be looked at.
-/

namespace TexCatalog

def Inline.IsLeaf : Inline → Prop
  | .text _ | .code .. | .space | .softBreak | .lineBreak | .math .. => True
  | .raw format _ => ¬ format.isTex
  | _ => False

def Block.IsLeaf : Block → Prop
  | .code .. | .rule => True
  | .raw format _ => ¬ format.isTex
  | _ => False

def unrecognizedInline (stem text : Text) : Diagnostic :=
  ⟨.warning, stem, "unrecognized inline macro: " ++ excerpt text⟩

def unrecognizedBlock (stem text : Text) : Diagnostic :=
  ⟨.warning, stem, "unrecognized block macro: " ++ excerpt text⟩

/-- Conditions on walked nodes and their notes that the steps of a walk keep, in trees of which all
nodes are admitted. A text that no form of running text expands satisfies `declined` with the notes
that it leaves. -/
structure TreeRules (admitted : TreeNode → Prop) (inlines : List Inline → Notes → Prop)
    (blocks : List Block → Notes → Prop) (items : List (List Block) → Notes → Prop)
    (declined : Text → Notes → Prop) : Prop where
  noInlines : inlines [] {}
  moreInlines {a b : List Inline} {m n : Notes} : inlines a m → inlines b n →
    inlines (a ++ b) (m.combine n)
  inlineLeaf {node : Inline} : admitted (.inline node) → node.IsLeaf → inlines [node] {}
  unrecognized {format : Format} {text : Text} {m : Notes} (stem : Text) : format.isTex →
    declined text m →
    inlines [.raw format text] (m.combine { diagnostics := [unrecognizedInline stem text] })
  styled {content : List Inline} {n : Notes} (style : Style) : inlines content n →
    inlines [.styled style content] n
  quoted {kind : QuoteKind} {raw content : List Inline} {n : Notes} :
    admitted (.inline (.quoted kind raw)) → inlines content n → inlines [.quoted kind content] n
  link {attr : Attr} {raw content : List Inline} {target : Target} {m : Notes} :
    admitted (.inline (.link attr raw target)) → inlines content m →
    inlines [resolveLink attr content target]
      (m.combine { findings := linkFindings target content })
  image {attr : Attr} {raw content : List Inline} {target : Target} {n : Notes} :
    admitted (.inline (.image attr raw target)) → inlines content n →
    inlines [.image attr content target] n
  span {attr : Attr} {raw content : List Inline} {n : Notes} :
    admitted (.inline (.span attr raw)) → inlines content n →
    inlines [.span attr content] (Notes.combine { findings := labelFindings attr } n)
  crossRef {attr : Attr} {raw content : List Inline} {label : Text} {n : Notes} :
    admitted (.inline (.crossRef attr raw label)) → inlines content n →
    inlines [.crossRef attr content label] n
  note {raw content : List Block} {n : Notes} : admitted (.inline (.note raw)) →
    blocks content n → inlines [.note content] n
  noBlocks : blocks [] {}
  moreBlocks {a b : List Block} {m n : Notes} : blocks a m → blocks b n →
    blocks (a ++ b) (m.combine n)
  blockLeaf {block : Block} : admitted (.block block) → block.IsLeaf → blocks [block] {}
  para {content : List Inline} {n : Notes} : inlines content n → blocks [.para content] n
  plain {raw content : List Inline} {n : Notes} : admitted (.block (.plain raw)) →
    inlines content n → blocks [.plain content] n
  header {content : List Inline} {n : Notes} (level : UInt8) (attr : Attr) : inlines content n →
    blocks [.header level attr content] (Notes.combine { findings := labelFindings attr } n)
  quote {raw content : List Block} {n : Notes} : admitted (.block (.quote raw)) →
    blocks content n → blocks [.quote content] n
  div {attr : Attr} {raw content : List Block} {n : Notes} : admitted (.block (.div attr raw)) →
    blocks content n → blocks [.div attr content]
      (Notes.combine { findings := labelFindings attr } n)
  noItems : items [] {}
  moreItems {item : List Block} {more : List (List Block)} {m n : Notes} : blocks item m →
    items more n → items (item :: more) (m.combine n)
  bullets {content : List (List Block)} {n : Notes} : items content n →
    blocks [.bullets content] n
  numbered {content : List (List Block)} {n : Notes} (numbering : Numbering) : items content n →
    blocks [.numbered numbering content] n

abbrev SourceRules := TreeRules TreeNode.IsSource

/-- What a form makes of a text satisfies a condition together with its notes, which satisfy another
one where there is nothing made. -/
def Made {Kind : Type} (P : List Kind → Notes → Prop) (declined : Notes → Prop)
    (nodes? : Option (List Kind)) (n : Notes) : Prop :=
  match nodes? with
  | none => declined n
  | some nodes => P nodes n

structure Expander.Makes (inlines : List Inline → Notes → Prop)
    (blocks : List Block → Notes → Prop) (declined : Text → Notes → Prop) (forms : Expander) :
    Prop where
  block (text : Text) : (forms.block text).Ensures blocks
  inline (text : Text) : (forms.inline text).Ensures (Made inlines (declined text))

open Walk

section

variable {admitted : TreeNode → Prop} {inlines : List Inline → Notes → Prop}
  {blocks : List Block → Notes → Prop} {items : List (List Block) → Notes → Prop}
  {declined : Text → Notes → Prop} {forms : Expander} {stem : Text}
  (hrules : TreeRules admitted inlines blocks items declined)

include hrules

theorem walkRaw_ensures (hforms : Expander.Makes inlines blocks declined forms) {format : Format}
    (htex : format.isTex) (text : Text) : (walkRaw stem forms format text).Ensures inlines := by
  refine ensures_bind (hforms.inline text) fun nodes? m hm => ?_
  cases nodes? with
  | none =>
    refine ensures_bind_pure (ensures_report (P := fun _ n =>
      n = { diagnostics := [unrecognizedInline stem text] }) rfl) fun _ n hn => ?_
    subst hn
    exact hrules.unrecognized stem htex hm
  | some nodes =>
    apply ensures_pure
    rw [Notes.combine_empty]
    exact hm

mutual

theorem walkInline_ensures (hforms : Expander.Makes inlines blocks declined forms) :
    ∀ node : Inline, (∀ n ∈ .inline node :: node.inner, admitted n) →
      (walkInline stem forms node).Ensures inlines
  | .raw format text, h => by
    rw [walkInline]
    split
    · next htex => exact walkRaw_ensures hrules hforms htex text
    · next htex => exact ensures_pure (hrules.inlineLeaf (List.forall_mem_cons.1 h).1 htex)
  | .link attr content target, h => by
    rw [List.forall_mem_cons] at h
    rw [walkInline]
    refine ensures_bind (walkInlines_ensures hforms content h.2) fun content m hm => ?_
    refine ensures_bind_pure (ensures_note (P := fun _ n =>
      n = { findings := linkFindings target content }) rfl) fun _ n hn => ?_
    subst hn
    exact hrules.link h.1 hm
  | .span attr content, h => by
    rw [List.forall_mem_cons] at h
    rw [walkInline]
    refine ensures_bind (ensures_note (P := fun _ n => n = { findings := labelFindings attr }) rfl)
      fun _ m hm => ?_
    subst hm
    exact ensures_bind_pure (walkInlines_ensures hforms content h.2)
      fun _ _ hn => hrules.span h.1 hn
  | .styled style content, h => by
    rw [List.forall_mem_cons] at h
    rw [walkInline]
    exact ensures_bind_pure (walkInlines_ensures hforms content h.2)
      fun _ _ hn => hrules.styled style hn
  | .quoted _ content, h => by
    rw [List.forall_mem_cons] at h
    rw [walkInline]
    exact ensures_bind_pure (walkInlines_ensures hforms content h.2)
      fun _ _ hn => hrules.quoted h.1 hn
  | .image _ content _, h => by
    rw [List.forall_mem_cons] at h
    rw [walkInline]
    exact ensures_bind_pure (walkInlines_ensures hforms content h.2)
      fun _ _ hn => hrules.image h.1 hn
  | .crossRef _ content _, h => by
    rw [List.forall_mem_cons] at h
    rw [walkInline]
    exact ensures_bind_pure (walkInlines_ensures hforms content h.2)
      fun _ _ hn => hrules.crossRef h.1 hn
  | .note content, h => by
    rw [List.forall_mem_cons] at h
    rw [walkInline]
    exact ensures_bind_pure (walkBlocks_ensures hforms content h.2) fun _ _ hn => hrules.note h.1 hn
  | .text _, h | .code .., h | .space, h | .softBreak, h | .lineBreak, h | .math .., h => by
    rw [walkInline]
    exact ensures_pure (hrules.inlineLeaf (List.forall_mem_cons.1 h).1 trivial)

theorem walkInlines_ensures (hforms : Expander.Makes inlines blocks declined forms) :
    ∀ nodes : List Inline, (∀ n ∈ inlineNodes nodes, admitted n) →
      (walkInlines stem forms nodes).Ensures inlines
  | [], _ => by
    rw [walkInlines]
    exact ensures_pure hrules.noInlines
  | node :: more, h => by
    rw [inlineNodes, List.forall_mem_append] at h
    rw [walkInlines]
    refine ensures_bind (walkInline_ensures hforms node h.1) fun nodes m hm => ?_
    exact ensures_bind_pure (walkInlines_ensures hforms more h.2)
      fun rest n hn => hrules.moreInlines hm hn

theorem walkBlock_ensures (hforms : Expander.Makes inlines blocks declined forms) :
    ∀ block : Block, (∀ n ∈ .block block :: block.inner, admitted n) →
      (walkBlock stem forms block).Ensures blocks
  | .raw format text, h => by
    rw [walkBlock]
    split
    · exact hforms.block text
    · next htex => exact ensures_pure (hrules.blockLeaf (List.forall_mem_cons.1 h).1 htex)
  | .para content, h => by
    rw [List.forall_mem_cons] at h
    rw [walkBlock]
    split
    · next text _ => exact hforms.block text
    · exact ensures_bind_pure (walkInlines_ensures hforms content h.2) fun _ _ hn => hrules.para hn
  | .plain content, h => by
    rw [List.forall_mem_cons] at h
    rw [walkBlock]
    exact ensures_bind_pure (walkInlines_ensures hforms content h.2)
      fun _ _ hn => hrules.plain h.1 hn
  | .header level attr content, h => by
    rw [List.forall_mem_cons] at h
    rw [walkBlock]
    refine ensures_bind (ensures_note (P := fun _ n => n = { findings := labelFindings attr }) rfl)
      fun _ m hm => ?_
    subst hm
    exact ensures_bind_pure (walkInlines_ensures hforms content h.2)
      fun _ _ hn => hrules.header level attr hn
  | .div attr content, h => by
    rw [List.forall_mem_cons] at h
    rw [walkBlock]
    refine ensures_bind (ensures_note (P := fun _ n => n = { findings := labelFindings attr }) rfl)
      fun _ m hm => ?_
    subst hm
    exact ensures_bind_pure (walkBlocks_ensures hforms content h.2) fun _ _ hn => hrules.div h.1 hn
  | .quote content, h => by
    rw [List.forall_mem_cons] at h
    rw [walkBlock]
    exact ensures_bind_pure (walkBlocks_ensures hforms content h.2)
      fun _ _ hn => hrules.quote h.1 hn
  | .bullets items, h => by
    rw [List.forall_mem_cons] at h
    rw [walkBlock]
    exact ensures_bind_pure (walkItems_ensures hforms items h.2) fun _ _ hn => hrules.bullets hn
  | .numbered numbering items, h => by
    rw [List.forall_mem_cons] at h
    rw [walkBlock]
    exact ensures_bind_pure (walkItems_ensures hforms items h.2)
      fun _ _ hn => hrules.numbered numbering hn
  | .code .., h | .rule, h => by
    rw [walkBlock]
    exact ensures_pure (hrules.blockLeaf (List.forall_mem_cons.1 h).1 trivial)

/-- The walk of blocks of which all nodes are admitted. -/
theorem walkBlocks_ensures (hforms : Expander.Makes inlines blocks declined forms) :
    ∀ bs : List Block, (∀ n ∈ blockNodes bs, admitted n) → (walkBlocks stem forms bs).Ensures blocks
  | [], _ => by
    rw [walkBlocks]
    exact ensures_pure hrules.noBlocks
  | block :: more, h => by
    rw [blockNodes, List.forall_mem_append] at h
    rw [walkBlocks]
    refine ensures_bind (walkBlock_ensures hforms block h.1) fun bs m hm => ?_
    exact ensures_bind_pure (walkBlocks_ensures hforms more h.2)
      fun rest n hn => hrules.moreBlocks hm hn

theorem walkItems_ensures (hforms : Expander.Makes inlines blocks declined forms) :
    ∀ bss : List (List Block), (∀ n ∈ itemNodes bss, admitted n) →
      (walkItems stem forms bss).Ensures items
  | [], _ => by
    rw [walkItems]
    exact ensures_pure hrules.noItems
  | item :: more, h => by
    rw [itemNodes, List.forall_mem_append] at h
    rw [walkItems]
    refine ensures_bind (walkBlocks_ensures hforms item h.1) fun item m hm => ?_
    exact ensures_bind_pure (walkItems_ensures hforms more h.2)
      fun rest n hn => hrules.moreItems hm hn

end

variable {bib : Bibliography} (hsource : ∀ node : TreeNode, node.IsSource → admitted node)
  (hforms : Expander.Makes inlines blocks declined forms) (text : Text)

include hsource hforms

/-- What a form is given for a text as blocks. -/
theorem formContext_blocks_ensures :
    ((Expander.formContext (sourceContext stem bib) forms).blocks text).Ensures blocks := by
  refine ensures_bind (ensures_read (P := fun bs n => bs = Source.readBlocks text ∧ n = {})
    ⟨rfl, rfl⟩) fun bs m hm => ?_
  obtain ⟨rfl, rfl⟩ := hm
  have hnodes := Source.readBlocks_fromSource text
  refine (walkBlocks_ensures hrules hforms _ fun node hnode => hsource _ (hnodes _ hnode)).mono
    fun bs n hn => ?_
  rwa [Notes.empty_combine]

/-- What a form is given for a text as running text. -/
theorem formContext_inlines_ensures :
    ((Expander.formContext (sourceContext stem bib) forms).inlines text).Ensures inlines := by
  refine ensures_bind (ensures_read (P := fun bs n => bs = Source.readBlocks text ∧ n = {})
    ⟨rfl, rfl⟩) fun bs m hm => ?_
  obtain ⟨rfl, rfl⟩ := hm
  have hnodes := flatten_fromSource (Source.readBlocks_fromSource text)
  refine (walkInlines_ensures hrules hforms _ fun node hnode => hsource _ (hnodes _ hnode)).mono
    fun nodes n hn => ?_
  rwa [Notes.empty_combine]

end

/-- Conditions on what forms build that become those on walked nodes when the built nodes have been
looked through. A text that no form of a block expands satisfies `passed` with the notes that it
leaves. -/
structure ExpansionRules (builtInlines : List Inline → Notes → Prop)
    (builtBlocks : List Block → Notes → Prop) (inlines : List Inline → Notes → Prop)
    (blocks : List Block → Notes → Prop) (declined passed : Text → Notes → Prop) : Prop where
  observedInlines {nodes : List Inline} {n : Notes} : builtInlines nodes n →
    inlines nodes (n.combine { findings := observeInlines nodes })
  observedBlocks {bs : List Block} {n : Notes} : builtBlocks bs n →
    blocks bs (n.combine { findings := observeBlocks bs })
  behind {text : Text} {bs : List Block} {m n : Notes} : passed text m → blocks bs n →
    blocks bs (m.combine n)
  emptied {n : Notes} : inlines [] n → blocks [] n
  paragraph {nodes : List Inline} {n : Notes} : inlines nodes n → blocks [.para nodes] n
  unexpanded {text : Text} {m n : Notes} (stem : Text) : passed text m → declined text n →
    blocks [.raw .tex text]
      (m.combine (n.combine { diagnostics := [unrecognizedBlock stem text] }))

section

variable {builtInlines inlines : List Inline → Notes → Prop}
  {builtBlocks blocks : List Block → Notes → Prop} {declined passed : Text → Notes → Prop}
  {forms : Vocabulary} {ctx : WalkContext} {inner : Expander}
  (hrules : ExpansionRules builtInlines builtBlocks inlines blocks declined passed)

include hrules

theorem expandInline_ensures {text : Text}
    (hforms : (Form.expandFirst (Expander.formContext ctx inner) text forms.inlines).Ensures
      (Made builtInlines (declined text))) :
    (Expander.expandInline forms ctx inner text).Ensures (Made inlines (declined text)) := by
  refine ensures_bind hforms fun nodes? m hm => ?_
  cases nodes? with
  | none =>
    apply ensures_pure
    rw [Notes.combine_empty]
    exact hm
  | some nodes =>
    refine ensures_bind_pure
      (ensures_note (P := fun _ n => n = { findings := observeInlines nodes }) rfl) fun _ n hn => ?_
    subst hn
    exact hrules.observedInlines hm

theorem expandBlock_ensures {text : Text}
    (hinlines : (Form.expandFirst (Expander.formContext ctx inner) text forms.inlines).Ensures
      (Made builtInlines (declined text)))
    (hblocks : (Form.expandFirst (Expander.formContext ctx inner) text forms.blocks).Ensures
      (Made builtBlocks (passed text))) :
    (Expander.expandBlock forms ctx inner text).Ensures blocks := by
  refine ensures_bind hblocks fun blocks? m hm => ?_
  cases blocks? with
  | some bs =>
    refine ensures_bind_pure
      (ensures_note (P := fun _ n => n = { findings := observeBlocks bs }) rfl) fun _ n hn => ?_
    subst hn
    exact hrules.observedBlocks hm
  | none =>
    refine ensures_bind (expandInline_ensures hrules hinlines) fun nodes? n hn => ?_
    match nodes?, hn with
    | some [], hn =>
      apply ensures_pure
      rw [Notes.combine_empty]
      exact hrules.behind hm (hrules.emptied hn)
    | some (node :: more), hn =>
      apply ensures_pure
      rw [Notes.combine_empty]
      exact hrules.behind hm (hrules.paragraph hn)
    | none, hn =>
      refine ensures_bind_pure (ensures_report (P := fun _ n =>
        n = { diagnostics := [unrecognizedBlock ctx.stem text] }) rfl) fun _ o ho => ?_
      subst ho
      exact hrules.unexpanded ctx.stem hm hn

/-- Forms that satisfy the conditions over every expander that does make an expander that does, by
induction on its levels. -/
theorem full_makes (hdeclined : ∀ text, declined text {}) (hpassed : ∀ text, passed text {})
    (hforms : ∀ inner, Expander.Makes inlines blocks declined inner → ∀ text,
      (Form.expandFirst (Expander.formContext ctx inner) text forms.inlines).Ensures
          (Made builtInlines (declined text)) ∧
        (Form.expandFirst (Expander.formContext ctx inner) text forms.blocks).Ensures
          (Made builtBlocks (passed text))) :
    Expander.Makes inlines blocks declined (.full forms ctx) := by
  have hdepth (depth : Nat) :
      Expander.Makes inlines blocks declined (.ofDepth forms ctx depth) := by
    induction depth with
    | zero =>
      refine ⟨fun text => ?_, fun text => ensures_pure (hdeclined text)⟩
      refine ensures_bind_pure (ensures_report (P := fun _ n =>
        n = { diagnostics := [unrecognizedBlock ctx.stem text] }) rfl) fun _ n hn => ?_
      subst hn
      have hraw := hrules.unexpanded ctx.stem (hpassed text) (hdeclined text)
      rwa [Notes.empty_combine, Notes.empty_combine] at hraw
    | succ depth ih =>
      exact ⟨fun text => expandBlock_ensures hrules (hforms _ ih text).1 (hforms _ ih text).2,
        fun text => expandInline_ensures hrules (hforms _ ih text).1⟩
  exact ⟨fun text => (hdepth (ctx.reader.levels text)).block text,
    fun text => (hdepth (ctx.reader.levels text)).inline text⟩

end

/-- The walk of a page whose expander satisfies the conditions. -/
theorem walkPage_ensures {inlines : List Inline → Notes → Prop} {blocks : List Block → Notes → Prop}
    {items : List (List Block) → Notes → Prop} {declined : Text → Notes → Prop} {forms : Vocabulary}
    {stem : Text} {bib : Bibliography} (hrules : SourceRules inlines blocks items declined)
    (hforms : Expander.Makes inlines blocks declined (.full forms (sourceContext stem bib)))
    (source : Text) : (walkPage forms (sourceContext stem bib) source).Ensures blocks := by
  refine ensures_bind (ensures_read (P := fun bs n =>
    bs = Source.readBlocks (Source.clean source) ∧ n = {}) ⟨rfl, rfl⟩) fun bs m hm => ?_
  obtain ⟨rfl, rfl⟩ := hm
  refine (walkBlocks_ensures hrules hforms _ (Source.readBlocks_fromSource _)).mono
    fun bs n hn => ?_
  rwa [Notes.empty_combine]

end TexCatalog
