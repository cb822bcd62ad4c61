import TexCatalog.Proofs.FormRelations
import TexCatalog.Proofs.NodeOrigins

/-!
# Trees without page source

Where nothing is left to expand, a walk makes references of the links to labels of the site and
rebuilds every other node as it was. It reports nothing, asks for no files, and finds no more than
labels and links.
-/

namespace TexCatalog

open Walk

abbrev Relinking := Attr → List Inline → Target → Inline

section

variable (f : Relinking)

mutual

def Inline.relink : Inline → Inline
  | .link attr content target => f attr (relinkInlines content) target
  | .styled style content => .styled style (relinkInlines content)
  | .quoted kind content => .quoted kind (relinkInlines content)
  | .image attr content target => .image attr (relinkInlines content) target
  | .span attr content => .span attr (relinkInlines content)
  | .crossRef attr content label => .crossRef attr (relinkInlines content) label
  | .note content => .note (relinkBlocks content)
  | .text t => .text t
  | .code attr t => .code attr t
  | .space => .space
  | .softBreak => .softBreak
  | .lineBreak => .lineBreak
  | .math kind t => .math kind t
  | .raw format t => .raw format t

def relinkInlines : List Inline → List Inline
  | [] => []
  | node :: more => node.relink :: relinkInlines more

def Block.relink : Block → Block
  | .plain content => .plain (relinkInlines content)
  | .para content => .para (relinkInlines content)
  | .header level attr content => .header level attr (relinkInlines content)
  | .quote content => .quote (relinkBlocks content)
  | .div attr content => .div attr (relinkBlocks content)
  | .bullets items => .bullets (relinkItems items)
  | .numbered numbering items => .numbered numbering (relinkItems items)
  | .code attr t => .code attr t
  | .raw format t => .raw format t
  | .rule => .rule

def relinkBlocks : List Block → List Block
  | [] => []
  | block :: more => block.relink :: relinkBlocks more

def relinkItems : List (List Block) → List (List Block)
  | [] => []
  | item :: more => relinkBlocks item :: relinkItems more

end

end

mutual

theorem Inline.relink_link : ∀ node : Inline, node.relink .link = node
  | .link _ content _ | .styled _ content | .quoted _ content | .image _ content _
  | .span _ content | .crossRef _ content _ => by rw [Inline.relink, relinkInlines_link content]
  | .note content => by rw [Inline.relink, relinkBlocks_link content]
  | .text _ | .code .. | .space | .softBreak | .lineBreak | .math .. | .raw .. => by
    rw [Inline.relink]

theorem relinkInlines_link : ∀ nodes : List Inline, relinkInlines .link nodes = nodes
  | [] => by rw [relinkInlines]
  | node :: more => by rw [relinkInlines, Inline.relink_link node, relinkInlines_link more]

theorem Block.relink_link : ∀ block : Block, block.relink .link = block
  | .plain content | .para content | .header _ _ content => by
    rw [Block.relink, relinkInlines_link content]
  | .quote content | .div _ content => by rw [Block.relink, relinkBlocks_link content]
  | .bullets items | .numbered _ items => by rw [Block.relink, relinkItems_link items]
  | .code .. | .raw .. | .rule => by rw [Block.relink]

theorem relinkBlocks_link : ∀ blocks : List Block, relinkBlocks .link blocks = blocks
  | [] => by rw [relinkBlocks]
  | block :: more => by rw [relinkBlocks, Block.relink_link block, relinkBlocks_link more]

theorem relinkItems_link : ∀ items : List (List Block), relinkItems .link items = items
  | [] => by rw [relinkItems]
  | item :: more => by rw [relinkItems, relinkBlocks_link item, relinkItems_link more]

end

theorem Target.isInternal_iff {target : Target} :
    target.IsInternal ↔ target.url.head? = some '#' ∧ target.url.tail ≠ [] := by
  constructor
  · rintro ⟨label, hlabel, hurl⟩
    rw [hurl]
    exact ⟨rfl, hlabel⟩
  · rintro ⟨hhead, htail⟩
    exact ⟨target.url.tail, htail, List.eq_cons_of_mem_head? hhead⟩

instance : DecidablePred Target.IsInternal := fun _ => decidable_of_iff' _ Target.isInternal_iff

/-- A link to a label of the site, unless it is that of a citation, as a reference to the label,
which has the title of the link among its attributes; every other link as it is. -/
def internalAsReference : Relinking := fun attr content target =>
  if target.IsInternal ∧ attr.get? "data-cite" = none then
    .crossRef (if target.title = [] then attr else attr.set "title" target.title) content
      target.url.tail
  else .link attr content target

theorem resolveLink_eq (attr : Attr) (content : List Inline) (target : Target) :
    resolveLink attr content target = internalAsReference attr content target := by
  unfold resolveLink internalAsReference
  split
  · next c label hurl =>
    have hinternal : target.IsInternal := ⟨c :: label, by simp, hurl⟩
    simp [hinternal, hurl]
  · next hother =>
    have hexternal : ¬target.IsInternal := by
      rintro ⟨label, hlabel, hurl⟩
      obtain ⟨c, label, rfl⟩ := List.exists_cons_of_ne_nil hlabel
      exact hother c label hurl
    rw [if_neg fun h => hexternal h.1]

namespace Walk

variable {α β : Type}

/-- From whatever files, the step gives a value and leaves the files as they are. It finds labels
and links at most and reports nothing. -/
def Gives (x : Walk α) (a : α) : Prop :=
  ∀ files, ∃ labels urls, x files = (.ok a, { findings := { labels, urls } }, files)

theorem gives_pure (a : α) : Gives (Pure.pure a) a := fun _ => ⟨∅, ∅, rfl⟩

theorem gives_bind {x : Walk α} {f : α → Walk β} {a : α} {b : β} (hx : x.Gives a)
    (hf : (f a).Gives b) : (x >>= f).Gives b := by
  intro files
  obtain ⟨labels, urls, hx⟩ := hx files
  obtain ⟨more, others, hf⟩ := hf files
  refine ⟨labels.union more, urls.union others, ?_⟩
  rw [bind_ok hx, hf]
  rfl

theorem gives_bind_pure {x : Walk α} {a : α} (g : α → β) (hx : x.Gives a) :
    (x >>= fun a => Pure.pure (g a)).Gives (g a) := gives_bind hx (gives_pure _)

theorem gives_labels (attr : Attr) : (note (labelFindings attr)).Gives () := by
  intro files
  unfold labelFindings
  split
  · exact ⟨∅, ∅, rfl⟩
  · exact ⟨.singleton attr.id, ∅, rfl⟩

theorem gives_links (target : Target) (content : List Inline) :
    (note (linkFindings target content)).Gives () := fun _ => ⟨∅, _, rfl⟩

end Walk

abbrev TexFree (nodes : List TreeNode) : Prop := TexAll (fun _ => False) nodes

section

variable {stem : Text} {forms : Expander}

mutual

theorem walkInline_gives : ∀ node : Inline, TexFree (.inline node :: node.inner) →
    (walkInline stem forms node).Gives [node.relink internalAsReference]
  | .raw format text, h => by
    have htex : ¬format.isTex := fun htex =>
      (texAll_cons.1 h).1 text (by rw [TreeNode.tex?, if_pos htex]; rfl)
    rw [walkInline, if_neg htex, Inline.relink]
    exact gives_pure _
  | .link attr content target, h => by
    rw [walkInline, Inline.relink, ← resolveLink_eq]
    exact gives_bind (walkInlines_gives content (texAll_cons.1 h).2)
      (gives_bind (gives_links target _) (gives_pure _))
  | .span attr content, h => by
    rw [walkInline, Inline.relink]
    exact gives_bind (gives_labels attr)
      (gives_bind_pure _ (walkInlines_gives content (texAll_cons.1 h).2))
  | .styled _ content, h | .quoted _ content, h | .image _ content _, h
  | .crossRef _ content _, h => by
    rw [walkInline, Inline.relink]
    exact gives_bind (walkInlines_gives content (texAll_cons.1 h).2) (gives_pure _)
  | .note content, h => by
    rw [walkInline, Inline.relink]
    exact gives_bind (walkBlocks_gives content (texAll_cons.1 h).2) (gives_pure _)
  | .text _, _ | .code .., _ | .space, _ | .softBreak, _ | .lineBreak, _ | .math .., _ => by
    rw [walkInline, Inline.relink]
    exact gives_pure _

theorem walkInlines_gives : ∀ nodes : List Inline, TexFree (inlineNodes nodes) →
    (walkInlines stem forms nodes).Gives (relinkInlines internalAsReference nodes)
  | [], _ => by
    rw [walkInlines, relinkInlines]
    exact gives_pure _
  | node :: more, h => by
    rw [inlineNodes] at h
    obtain ⟨hfirst, hmore⟩ := texAll_append.1 h
    rw [walkInlines, relinkInlines]
    exact gives_bind (walkInline_gives node hfirst)
      (gives_bind_pure _ (walkInlines_gives more hmore))

theorem walkBlock_gives : ∀ block : Block, TexFree (.block block :: block.inner) →
    (walkBlock stem forms block).Gives [block.relink internalAsReference]
  | .raw format text, h => by
    have htex : ¬format.isTex := fun htex =>
      (texAll_cons.1 h).1 text (by rw [TreeNode.tex?, if_pos htex]; rfl)
    rw [walkBlock, if_neg htex, Block.relink]
    exact gives_pure _
  | .para content, h => by
    have hlone : loneRaw? content = none :=
      Option.eq_none_iff_forall_ne_some.2 fun _ ht => TexAll.loneRaw (texAll_cons.1 h).2 ht
    rw [walkBlock, hlone, Block.relink]
    exact gives_bind (walkInlines_gives content (texAll_cons.1 h).2) (gives_pure _)
  | .plain content, h => by
    rw [walkBlock, Block.relink]
    exact gives_bind (walkInlines_gives content (texAll_cons.1 h).2) (gives_pure _)
  | .header level attr content, h => by
    rw [walkBlock, Block.relink]
    exact gives_bind (gives_labels attr)
      (gives_bind_pure _ (walkInlines_gives content (texAll_cons.1 h).2))
  | .div attr content, h => by
    rw [walkBlock, Block.relink]
    exact gives_bind (gives_labels attr)
      (gives_bind_pure _ (walkBlocks_gives content (texAll_cons.1 h).2))
  | .quote content, h => by
    rw [walkBlock, Block.relink]
    exact gives_bind (walkBlocks_gives content (texAll_cons.1 h).2) (gives_pure _)
  | .bullets items, h | .numbered _ items, h => by
    rw [walkBlock, Block.relink]
    exact gives_bind (walkItems_gives items (texAll_cons.1 h).2) (gives_pure _)
  | .code .., _ | .rule, _ => by
    rw [walkBlock, Block.relink]
    exact gives_pure _

theorem walkBlocks_gives : ∀ blocks : List Block, TexFree (blockNodes blocks) →
    (walkBlocks stem forms blocks).Gives (relinkBlocks internalAsReference blocks)
  | [], _ => by
    rw [walkBlocks, relinkBlocks]
    exact gives_pure _
  | block :: more, h => by
    rw [blockNodes] at h
    obtain ⟨hfirst, hmore⟩ := texAll_append.1 h
    rw [walkBlocks, relinkBlocks]
    exact gives_bind (walkBlock_gives block hfirst)
      (gives_bind_pure _ (walkBlocks_gives more hmore))

theorem walkItems_gives : ∀ items : List (List Block), TexFree (itemNodes items) →
    (walkItems stem forms items).Gives (relinkItems internalAsReference items)
  | [], _ => by
    rw [walkItems, relinkItems]
    exact gives_pure _
  | item :: more, h => by
    rw [itemNodes] at h
    obtain ⟨hfirst, hmore⟩ := texAll_append.1 h
    rw [walkItems, relinkItems]
    exact gives_bind (walkBlocks_gives item hfirst)
      (gives_bind_pure _ (walkItems_gives more hmore))

end

end

/-- The page of a tree without page source, in every context: nothing is reported, the record has
labels and links at most, and in the tree the links are rebuilt, those to labels of the site as
references; rebuilding gives back the tree where it leaves the links alone. -/
theorem walkDocument_of_texFree (ctx : WalkContext) {blocks : List Block}
    (h : TexFree (blockNodes blocks)) (files : Store) :
    (∃ labels urls, walkDocument ctx blocks files =
      (.ok ⟨⟨{ stem := ctx.stem, labels, urls }, relinkBlocks internalAsReference blocks⟩, []⟩,
        files)) ∧ relinkBlocks .link blocks = blocks := by
  refine ⟨?_, relinkBlocks_link blocks⟩
  have hgives : (walkBlocks ctx.stem (.full Form.vocabulary ctx) blocks).Gives
      (relinkBlocks internalAsReference blocks) := walkBlocks_gives blocks h
  obtain ⟨labels, urls, hwalk⟩ := hgives files
  refine ⟨labels, urls, ?_⟩
  unfold walkDocument finish
  rw [hwalk]

/-- A list from iii on, with a link to a label in it and a note with links that stay. -/
def linkedList : List Block :=
  [.numbered ⟨3, .lowerRoman, .oneParen⟩
    [[.plain [.link (.ofClasses ["near"]) [.styled .strong [.text "above"]] ⟨"#intro", "Start"⟩]],
      [.quote [.para [.quoted .single [.note [.plain [.link .empty [.text "#"] ⟨"#", "Top"⟩,
        .link ⟨[], [], [("data-cite", "Cor14")]⟩ [] ⟨"#Cor14", []⟩, .raw ⟨"html"⟩ "<br>"]]]]]]]]

theorem walkDocument_of_texFree_linkedList : TexFree (blockNodes linkedList) ∧
    ∃ labels urls, walkDocument (sourceContext "page" ∅) linkedList .empty =
      (.ok ⟨⟨{ stem := "page", labels, urls },
        [.numbered ⟨3, .lowerRoman, .oneParen⟩
          [[.plain [.crossRef ⟨[], ["near"], [("title", "Start")]⟩
              [.styled .strong [.text "above"]] "intro"]],
            [.quote [.para [.quoted .single [.note [.plain [.link .empty [.text "#"] ⟨"#", "Top"⟩,
              .link ⟨[], [], [("data-cite", "Cor14")]⟩ [] ⟨"#Cor14", []⟩,
              .raw ⟨"html"⟩ "<br>"]]]]]]]]⟩, []⟩, .empty) := by
  have hfree : TexFree (blockNodes linkedList) := by
    simp [linkedList, blockNodes, Block.inner, itemNodes, inlineNodes, Inline.inner, TreeNode.tex?,
      Format.isTex]
  refine ⟨hfree, ?_⟩
  obtain ⟨⟨labels, urls, hwalk⟩, -⟩ :=
    walkDocument_of_texFree (sourceContext "page" ∅) hfree .empty
  refine ⟨labels, urls, hwalk.trans ?_⟩
  have hlink : internalAsReference (.ofClasses ["near"]) [.styled .strong [.text "above"]]
      ⟨"#intro", "Start"⟩ = .crossRef ⟨[], ["near"], [("title", "Start")]⟩
        [.styled .strong [.text "above"]] "intro" := by
    simp [internalAsReference, Target.isInternal_iff, Attr.get?, Attr.set, Attr.setPair,
      Attr.ofClasses]
  have htop : internalAsReference .empty [.text "#"] ⟨"#", "Top"⟩ =
      .link .empty [.text "#"] ⟨"#", "Top"⟩ := if_neg (by decide +kernel)
  have hcite : internalAsReference ⟨[], [], [("data-cite", "Cor14")]⟩ [] ⟨"#Cor14", []⟩ =
      .link ⟨[], [], [("data-cite", "Cor14")]⟩ [] ⟨"#Cor14", []⟩ := if_neg (by decide +kernel)
  simp only [linkedList, relinkBlocks, Block.relink, relinkItems, relinkInlines, Inline.relink,
    hlink, htop, hcite]
  rfl

end TexCatalog
