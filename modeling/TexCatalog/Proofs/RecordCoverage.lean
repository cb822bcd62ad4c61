import TexCatalog.Proofs.SourceWalk

/-!
# The record of a page knows its tree

Labels, citations and links are collected in two ways: while the tree of the reader is walked, and
by looking through what a form has built. Together they miss nothing that stands in the tree of a
page, at whatever depth.
-/

namespace TexCatalog

namespace Findings

def Knows (f : Findings) : TreeNode → Prop
  | .inline (.link attr content target) =>
    (∀ key, attr.get? "data-cite" = some key → key ∈ f.citations) ∧
      target.url ++ " " ++ Text.trim (plainText content) ∈ f.urls
  | node => node.identifier ≠ [] → node.identifier ∈ f.labels

def Covers (f : Findings) (nodes : List TreeNode) : Prop := ∀ node ∈ nodes, f.Knows node

section

variable {f g : Findings} {node : TreeNode} {nodes more : List TreeNode}

theorem Knows.mono (h : f.Knows node) (hl : ∀ t ∈ f.labels, t ∈ g.labels)
    (hc : ∀ t ∈ f.citations, t ∈ g.citations) (hu : ∀ t ∈ f.urls, t ∈ g.urls) : g.Knows node := by
  unfold Knows at h ⊢
  split at h
  · exact ⟨fun key hk => hc _ (h.1 key hk), hu _ h.2⟩
  · exact fun hid => hl _ (h hid)

theorem Knows.identifier (h : f.Knows node) (hid : node.identifier ≠ []) :
    node.identifier ∈ f.labels := by
  unfold Knows at h
  split at h
  · exact absurd rfl hid
  · exact h hid

@[simp] theorem covers_nil : f.Covers [] := by simp [Covers]

@[simp] theorem covers_cons : f.Covers (node :: nodes) ↔ f.Knows node ∧ f.Covers nodes := by
  simp [Covers]

@[simp] theorem covers_append : f.Covers (nodes ++ more) ↔ f.Covers nodes ∧ f.Covers more := by
  simp only [Covers, List.mem_append, or_imp, forall_and]

theorem Covers.before (h : f.Covers nodes) (g : Findings) : (f.combine g).Covers nodes := by
  intro node hn
  apply (h node hn).mono <;> intro t ht <;> simp [ht]

theorem Covers.behind (h : g.Covers nodes) (f : Findings) : (f.combine g).Covers nodes := by
  intro node hn
  apply (h node hn).mono <;> intro t ht <;> simp [ht]

end

end Findings

open Findings

theorem mem_labelFindings {attr : Attr} (h : attr.id ≠ []) :
    attr.id ∈ (labelFindings attr).labels := by
  rw [labelFindings, if_neg h]
  exact TextSet.mem_singleton.2 rfl

theorem mem_citationFindings {attr : Attr} {key : Text} (h : attr.get? "data-cite" = some key) :
    key ∈ (citationFindings attr).citations := by
  rw [citationFindings, h]
  exact TextSet.mem_singleton.2 rfl

theorem mem_linkFindings (target : Target) (content : List Inline) :
    target.url ++ " " ++ Text.trim (plainText content) ∈ (linkFindings target content).urls :=
  TextSet.mem_singleton.2 rfl

mutual

theorem observeInline_covers :
    ∀ node : Inline, (observeInline node).Covers (.inline node :: node.inner)
  | .link attr content target => by
    have hrest := (observeInlines_covers content).behind (linkFindings target content)
    rw [observeInline, covers_cons]
    refine ⟨⟨fun key hk => ?_, ?_⟩, hrest.behind _⟩
    · exact mem_citations_combine.2 (.inl (mem_citationFindings hk))
    · exact mem_urls_combine.2 (.inr (mem_urls_combine.2 (.inl (mem_linkFindings target content))))
  | .span attr content => by
    rw [observeInline, covers_cons]
    exact ⟨fun hid => mem_labels_combine.2 (.inl (mem_labelFindings hid)),
      (observeInlines_covers content).behind _⟩
  | .styled _ content | .quoted _ content | .image _ content _ | .crossRef _ content _ => by
    rw [observeInline, covers_cons]
    exact ⟨fun hid => absurd rfl hid, observeInlines_covers content⟩
  | .note content => by
    rw [observeInline, covers_cons]
    exact ⟨fun hid => absurd rfl hid, observeBlocks_covers content⟩
  | .text _ | .code .. | .space | .softBreak | .lineBreak | .math .. | .raw .. => by
    rw [observeInline, covers_cons]
    exact ⟨fun hid => absurd rfl hid, covers_nil⟩

theorem observeInlines_covers :
    ∀ nodes : List Inline, (observeInlines nodes).Covers (inlineNodes nodes)
  | [] => covers_nil
  | node :: more => by
    rw [observeInlines, inlineNodes, covers_append]
    exact ⟨(observeInline_covers node).before _, (observeInlines_covers more).behind _⟩

theorem observeBlock_covers :
    ∀ block : Block, (observeBlock block).Covers (.block block :: block.inner)
  | .header _ attr content => by
    rw [observeBlock, covers_cons]
    exact ⟨fun hid => mem_labels_combine.2 (.inl (mem_labelFindings hid)),
      (observeInlines_covers content).behind _⟩
  | .div attr content => by
    rw [observeBlock, covers_cons]
    exact ⟨fun hid => mem_labels_combine.2 (.inl (mem_labelFindings hid)),
      (observeBlocks_covers content).behind _⟩
  | .para content | .plain content => by
    rw [observeBlock, covers_cons]
    exact ⟨fun hid => absurd rfl hid, observeInlines_covers content⟩
  | .quote content => by
    rw [observeBlock, covers_cons]
    exact ⟨fun hid => absurd rfl hid, observeBlocks_covers content⟩
  | .bullets items | .numbered _ items => by
    rw [observeBlock, covers_cons]
    exact ⟨fun hid => absurd rfl hid, observeItems_covers items⟩
  | .code .. | .raw .. | .rule => by
    rw [observeBlock, covers_cons]
    exact ⟨fun hid => absurd rfl hid, covers_nil⟩

theorem observeBlocks_covers :
    ∀ blocks : List Block, (observeBlocks blocks).Covers (blockNodes blocks)
  | [] => covers_nil
  | block :: more => by
    rw [observeBlocks, blockNodes, covers_append]
    exact ⟨(observeBlock_covers block).before _, (observeBlocks_covers more).behind _⟩

theorem observeItems_covers :
    ∀ items : List (List Block), (observeItems items).Covers (itemNodes items)
  | [] => covers_nil
  | item :: more => by
    rw [observeItems, itemNodes, covers_append]
    exact ⟨(observeBlocks_covers item).before _, (observeItems_covers more).behind _⟩

end

/-- A link of the reader stays a known link or becomes a reference, which holds nothing to know. -/
theorem resolveLink_covers {f : Findings} {attr : Attr} {content : List Inline} {target : Target}
    (hcite : attr.get? "data-cite" = none) (hcontent : f.Covers (inlineNodes content))
    (hurl : target.url ++ " " ++ Text.trim (plainText content) ∈ f.urls) :
    f.Covers (inlineNodes [resolveLink attr content target]) := by
  have hlink : f.Covers (inlineNodes [.link attr content target]) := by
    simp only [inlineNodes, Inline.inner, List.append_nil, covers_cons]
    refine ⟨⟨fun key hk => ?_, hurl⟩, hcontent⟩
    rw [hcite] at hk
    cases hk
  have href (attr : Attr) (label : Text) :
      f.Covers (inlineNodes [.crossRef attr content label]) := by
    simp only [inlineNodes, Inline.inner, List.append_nil, covers_cons]
    exact ⟨fun hid => absurd rfl hid, hcontent⟩
  unfold resolveLink
  split
  · rw [hcite]
    exact href _ _
  · exact hlink

/-- The notes of a walk cover what it gives, node by node. -/
theorem covers_sourceRules :
    SourceRules (fun nodes n => n.findings.Covers (inlineNodes nodes))
      (fun blocks n => n.findings.Covers (blockNodes blocks))
      (fun items n => n.findings.Covers (itemNodes items)) (fun _ _ => True) where
  noInlines := covers_nil
  moreInlines ha hb := by
    rw [inlineNodes_append, covers_append]
    exact ⟨ha.before _, hb.behind _⟩
  inlineLeaf {node} _ hleaf := by
    cases node <;> first
      | exact hleaf.elim
      | simp [inlineNodes, Inline.inner, Knows, TreeNode.identifier]
  unrecognized _ _ _ := by simp [inlineNodes, Inline.inner, Knows, TreeNode.identifier]
  styled _ h := by simpa [inlineNodes, Inline.inner, Knows, TreeNode.identifier] using h
  quoted h _ := h.elim
  link {attr _ _ target _} hpairs h := by
    have hcite : attr.get? "data-cite" = none := by
      have hpairs : attr.pairs = [] := hpairs
      rw [Attr.get?, hpairs]
      rfl
    apply resolveLink_covers hcite (h.before _)
    exact mem_urls_combine.2 (.inr (mem_linkFindings target _))
  image h _ := h.elim
  span h _ := h.elim
  crossRef h _ := h.elim
  note h _ := h.elim
  noBlocks := covers_nil
  moreBlocks ha hb := by
    rw [blockNodes_append, covers_append]
    exact ⟨ha.before _, hb.behind _⟩
  blockLeaf {block} _ hleaf := by
    cases block <;> first
      | exact hleaf.elim
      | simp [blockNodes, Block.inner, Knows, TreeNode.identifier]
  para h := by simpa [blockNodes, Block.inner, Knows, TreeNode.identifier] using h
  plain h _ := h.elim
  header level attr h := by
    simp only [blockNodes, Block.inner, List.append_nil, covers_cons]
    exact ⟨fun hid => mem_labels_combine.2 (.inl (mem_labelFindings hid)), h.behind _⟩
  quote h _ := h.elim
  div h _ := h.elim
  noItems := covers_nil
  moreItems ha hb := by
    rw [itemNodes, covers_append]
    exact ⟨ha.before _, hb.behind _⟩
  bullets h := by simpa [blockNodes, Block.inner, Knows, TreeNode.identifier] using h
  numbered _ h := by simpa [blockNodes, Block.inner, Knows, TreeNode.identifier] using h

/-- Whatever the forms do, what they build is looked through afterwards. -/
theorem covers_expansionRules :
    ExpansionRules (fun _ _ => True) (fun _ _ => True)
      (fun nodes n => n.findings.Covers (inlineNodes nodes))
      (fun blocks n => n.findings.Covers (blockNodes blocks)) (fun _ _ => True)
      (fun _ _ => True) where
  observedInlines _ := (observeInlines_covers _).behind _
  observedBlocks _ := (observeBlocks_covers _).behind _
  behind _ h := h.behind _
  emptied _ := covers_nil
  paragraph h := by simpa [blockNodes, Block.inner, Knows, TreeNode.identifier] using h
  unexpanded _ _ _ := by simp [blockNodes, Block.inner, Knows, TreeNode.identifier]

/-- The notes of every expander cover what it makes of raw texts. -/
theorem full_covers (forms : Vocabulary) (ctx : WalkContext) :
    Expander.Makes (fun nodes n => n.findings.Covers (inlineNodes nodes))
      (fun blocks n => n.findings.Covers (blockNodes blocks)) (fun _ _ => True)
      (.full forms ctx) := by
  have hany {Kind : Type} (x : Walk (Option (List Kind))) :
      x.Ensures (Made (fun _ _ => True) fun _ => True) := by
    intro s nodes? n t _
    cases nodes? <;> trivial
  exact full_makes covers_expansionRules (fun _ => trivial) (fun _ => trivial)
    fun _ _ _ => ⟨hany _, hany _⟩

/-- The notes of a page's walk cover its tree. -/
theorem walkPage_covers (forms : Vocabulary) (stem : Text) (bib : Bibliography) (source : Text) :
    (walkPage forms (sourceContext stem bib) source).Ensures fun blocks n =>
      n.findings.Covers (blockNodes blocks) :=
  walkPage_ensures covers_sourceRules (full_covers forms _) source

/-- What a walk leaves is in the record of the page that it gives. -/
theorem Walk.Ensures.finish {walk : Walk (List Block)} {P : List Block → Notes → Prop}
    (hwalk : walk.Ensures P) {stem : Text} {files files' : Store} {page : Walked}
    (h : walk.finish stem files = (.ok page, files')) :
    page.artifact.record.stem = stem ∧
      P page.artifact.blocks ⟨page.artifact.record.toFindings, page.diagnostics⟩ := by
  unfold Walk.finish at h
  split at h
  · cases h
  · next blocks notes _ hw =>
    cases h
    exact ⟨rfl, hwalk hw⟩

/-- Whatever stands in the tree of a page is in its record: identifiers among the labels, cited keys
among the citations, and every link with its plain text among the links. -/
theorem walkSource_record_knows_tree (stem source : Text) (bib : Bibliography) (files files' : Store)
    (page : Walked)
    (h : walkSource (sourceContext stem bib) source files = (.ok page, files')) :
    (∀ node ∈ blockNodes page.artifact.blocks,
        node.identifier ≠ [] → node.identifier ∈ page.artifact.record.labels) ∧
      ∀ attr content target,
        TreeNode.inline (.link attr content target) ∈ blockNodes page.artifact.blocks →
        (∀ key, attr.get? "data-cite" = some key → key ∈ page.artifact.record.citations) ∧
          target.url ++ " " ++ Text.trim (plainText content) ∈ page.artifact.record.urls := by
  have hcovers := ((walkPage_covers Form.vocabulary stem bib source).finish h).2
  constructor
  · intro node hnode hid
    exact (hcovers node hnode).identifier hid
  · intro attr content target hlink
    exact hcovers _ hlink

def quotedLabel : Text :=
  "\\begin\x7btheorem\x7d\\begin\x7bquote\x7dHere\\label\x7ba\x7d\\end\x7bquote\x7d\\end\x7btheorem\x7d"

/-- The label in a quotation within a theorem is in the record. -/
theorem walkSource_record_knows_quoted_label : ∃ page files',
    walkSource (sourceContext "page" ∅) quotedLabel .empty = (.ok page, files') ∧
      ("a" : Text) ∈ page.artifact.record.labels := by
  have hwalk : (match (walkSource (sourceContext "page" ∅) quotedLabel .empty).1 with
    | .ok page => (blockNodes page.artifact.blocks).any fun node => node.identifier = "a"
    | .error _ => false) = true := by decide +kernel
  rcases hpage : walkSource (sourceContext "page" ∅) quotedLabel .empty with ⟨r, files'⟩
  rw [hpage] at hwalk
  cases r with
  | error e => cases hwalk
  | ok page =>
    obtain ⟨node, hnode, hid⟩ := List.any_eq_true.1 hwalk
    have hid : node.identifier = "a" := of_decide_eq_true hid
    have hknows := (walkSource_record_knows_tree _ _ _ _ _ _ hpage).1 node hnode
    rw [hid] at hknows
    exact ⟨page, files', rfl, hknows (by simp)⟩

end TexCatalog
