import TexCatalog.Proofs.LayoutAnchors
import TexCatalog.Proofs.LayoutNodes

/-!
# Problems on a page

The layout of a page reports source text that is left in the tree, references to labels that the
site does not know, and unknown special blocks. Every such node that the page shows gives one
problem, in the order of the nodes, and there are no other problems.
-/

namespace TexCatalog

def Diagnostic.unparsed (stem t : Text) : Diagnostic :=
  ⟨.error, stem, "unparsed LaTeX at render time: " ++ Text.trim t⟩

namespace Layout

section

variable (ctx : LayoutContext)

def tableProblems (t : Text) : Diagnostics :=
  if (Grid.ofText? t).isSome then [] else [.unparsed ctx.stem t]

def rawProblems (format : Format) (t : Text) : Diagnostics :=
  if format.isTable then tableProblems ctx t
  else if format.isTex then [.unparsed ctx.stem t]
  else []

def labelProblems (label text : Text) : Diagnostics :=
  match LabelIndex.resolve ctx.labels label with
  | .resolved _ => []
  | .deferred label =>
    [⟨.error, ctx.stem,
      "unresolved label " ++ label ++ " (link text " ++ Text.quoted (Text.trim text) ++ ")"⟩]

def specialProblems (attr : Attr) : Diagnostics :=
  if (attr.get? "block").getD [] = ("polynomialtable" : Text) then []
  else [⟨.error, ctx.stem, "unknown special block " ++ Text.quoted ((attr.get? "block").getD [])⟩]

end

end Layout

def TreeNode.problems (ctx : LayoutContext) : TreeNode → Diagnostics
  | .inline (.raw format t) => Layout.rawProblems ctx format t
  | .block (.raw format t) => Layout.rawProblems ctx format t
  | .inline (.crossRef _ content label) => Layout.labelProblems ctx label (plainText content)
  | .block (.div attr _) => if attr.isSpecial then Layout.specialProblems ctx attr else []
  | _ => []

def problems (ctx : LayoutContext) (nodes : List TreeNode) : Diagnostics :=
  nodes.flatMap (TreeNode.problems ctx)

section

variable {ctx : LayoutContext} {node : TreeNode} {nodes more : List TreeNode}

@[simp] theorem problems_nil : problems ctx [] = [] := rfl

@[simp] theorem problems_cons :
    problems ctx (node :: nodes) = node.problems ctx ++ problems ctx nodes := rfl

@[simp] theorem problems_append :
    problems ctx (nodes ++ more) = problems ctx nodes ++ problems ctx more := by
  simp [problems]

end

namespace Layout

section

variable {α β : Type}

def Reports (x : Layout α) (ds : Diagnostics) : Prop := ∀ n, (x n).2.diagnostics = ds

variable {x : Layout α} {f : α → Layout β} {g : α → β} {ds es : Diagnostics}

theorem reports_pure {a : α} : Reports (Pure.pure a) [] := fun _ => rfl

theorem reports_bind (hx : x.Reports ds) (hf : ∀ a, (f a).Reports es) :
    (x >>= f).Reports (ds ++ es) := by
  intro n
  change (x n).2.diagnostics ++ (f (x n).1 (n + (x n).2.notes.length)).2.diagnostics = ds ++ es
  rw [hx, hf]

/-- What is made of a value does not change the problems. -/
theorem reports_bind_pure_iff : (x >>= fun a => Pure.pure (g a)).Reports ds ↔ x.Reports ds := by
  have hsame (n : Nat) : ((x >>= fun a => Pure.pure (g a)) n).2.diagnostics =
      (x n).2.diagnostics := List.append_nil _
  simp only [Reports, hsame]

theorem reports_bind_pure (hx : x.Reports ds) : (x >>= fun a => Pure.pure (g a)).Reports ds :=
  reports_bind_pure_iff.2 hx

theorem reports_report {d : Diagnostic} : (report d).Reports [d] := fun _ => rfl

/-- The problems in a note are reported where the note is referred to. -/
theorem reports_collect {x : Layout (List Html)} (hx : x.Reports ds) : (collect x).Reports ds := hx

end

section

variable (ctx : LayoutContext)

theorem layoutUnparsed_reports (t : Text) :
    (layoutUnparsed ctx t).Reports [.unparsed ctx.stem t] := reports_bind_pure reports_report

theorem layoutTable_reports (t : Text) : (layoutTable ctx t).Reports (tableProblems ctx t) := by
  unfold layoutTable tableProblems
  cases Grid.ofText? t with
  | some grid => exact reports_pure
  | none => exact layoutUnparsed_reports ctx t

theorem layoutRawInline_reports (format : Format) (t : Text) :
    (layoutRawInline ctx format t).Reports (rawProblems ctx format t) := by
  unfold layoutRawInline rawProblems
  split
  · exact layoutTable_reports ctx t
  · split
    · exact layoutUnparsed_reports ctx t
    · split <;> exact reports_pure

theorem layoutRawBlock_reports (format : Format) (t : Text) :
    (layoutRawBlock ctx format t).Reports (rawProblems ctx format t) := by
  unfold layoutRawBlock rawProblems
  split
  · exact reports_bind_pure (layoutTable_reports ctx t)
  · split
    · exact reports_bind_pure (layoutUnparsed_reports ctx t)
    · split <;> exact reports_pure

theorem layoutTarget_reports (label text : Text) :
    (layoutTarget ctx label text).Reports (labelProblems ctx label text) := by
  unfold layoutTarget labelProblems
  cases LabelIndex.resolve ctx.labels label with
  | resolved href => exact reports_pure
  | deferred label => exact reports_bind_pure reports_report

theorem layoutSpecial_reports (attr : Attr) :
    (layoutSpecial ctx attr).Reports (specialProblems ctx attr) := by
  unfold layoutSpecial specialProblems
  simp only
  split
  · exact reports_pure
  · exact reports_bind_pure reports_report

variable {ctx} {block : Block} {more : List Block} {content : List Inline} {ds es : Diagnostics}

theorem reports_of_para (h : (layoutBlock ctx (.para content)).Reports ds) :
    (layoutInlines ctx content).Reports ds := by
  rw [layoutBlock] at h
  exact reports_bind_pure_iff.1 h

theorem reports_of_plain (h : (layoutBlock ctx (.plain content)).Reports ds) :
    (layoutInlines ctx content).Reports ds := by
  rw [layoutBlock] at h
  exact reports_bind_pure_iff.1 h

/-- The summary of a collapsible division reports what its paragraph does. -/
theorem layoutDetails_reports_cons (hblock : (layoutBlock ctx block).Reports ds)
    (hmore : (layoutBlocks ctx more).Reports es) :
    (layoutDetails ctx (block :: more)).Reports (ds ++ es) := by
  unfold layoutDetails
  split
  · next heq =>
    cases heq
    exact reports_bind (reports_of_para hblock) fun _ => reports_bind_pure hmore
  · next heq =>
    cases heq
    exact reports_bind hblock fun _ => reports_bind_pure hmore
  · next heq => cases heq

/-- An item that is only a paragraph reports what the paragraph does. -/
theorem layoutItem_reports_cons (hblock : (layoutBlock ctx block).Reports ds)
    (hmore : (layoutBlocks ctx more).Reports es) :
    (layoutItem ctx (block :: more)).Reports (ds ++ es) := by
  have halone (hnil : more = []) : ds ++ es = ds := by
    subst hnil
    have hempty := hmore 0
    rw [layoutBlocks] at hempty
    rw [← hempty]
    exact List.append_nil ds
  unfold layoutItem
  split
  · next heq =>
    cases heq
    rw [halone rfl]
    exact reports_of_para hblock
  · next heq =>
    cases heq
    rw [halone rfl]
    exact reports_of_plain hblock
  · next heq =>
    cases heq
    exact reports_bind hblock fun _ => reports_bind_pure hmore
  · next heq => cases heq

end

variable (ctx : LayoutContext)

mutual

theorem layoutInline_reports : ∀ node : Inline,
    (layoutInline ctx node).Reports (problems ctx (.inline node :: node.shownInner))
  | .styled _ content | .quoted _ content | .link _ content _ => by
    rw [layoutInline, Inline.shownInner]
    exact reports_bind_pure (layoutInlines_reports content)
  | .span attr content => by
    rw [layoutInline, Inline.shownInner]
    split
    · next icon hicon =>
      rw [if_pos (isIcon_of_icon? hicon)]
      exact reports_pure
    · next hicon =>
      rw [icon?_eq_none] at hicon
      rw [hicon, if_neg Bool.false_ne_true]
      exact reports_bind_pure (layoutInlines_reports content)
  | .crossRef _ content label => by
    rw [layoutInline, Inline.shownInner]
    exact reports_bind (layoutTarget_reports ctx label _) fun _ =>
      reports_bind_pure (layoutInlines_reports content)
  | .note content => by
    rw [layoutInline, Inline.shownInner]
    exact reports_bind_pure (reports_collect (layoutBlocks_reports content))
  | .raw format t => by
    rw [layoutInline, Inline.shownInner, problems_cons, problems_nil, List.append_nil]
    exact layoutRawInline_reports ctx format t
  | .text _ | .code .. | .space | .softBreak | .lineBreak | .math .inline _ | .math .display _
  | .image .. => by
    rw [layoutInline, Inline.shownInner]
    exact reports_pure

theorem layoutInlines_reports : ∀ nodes : List Inline,
    (layoutInlines ctx nodes).Reports (problems ctx (shownInlines nodes))
  | [] => by
    rw [layoutInlines, shownInlines]
    exact reports_pure
  | node :: more => by
    rw [layoutInlines, shownInlines, problems_append]
    exact reports_bind (layoutInline_reports node) fun _ =>
      reports_bind_pure (layoutInlines_reports more)

theorem layoutBlock_reports : ∀ block : Block,
    (layoutBlock ctx block).Reports (problems ctx (.block block :: block.shownInner))
  | .plain content | .para content | .header _ _ content => by
    rw [layoutBlock, Block.shownInner]
    exact reports_bind_pure (layoutInlines_reports content)
  | .quote content => by
    rw [layoutBlock, Block.shownInner]
    exact reports_bind_pure (layoutBlocks_reports content)
  | .bullets items | .numbered _ items => by
    rw [layoutBlock, Block.shownInner]
    exact reports_bind_pure (layoutItems_reports items)
  | .div attr content => by
    rw [layoutBlock, Block.shownInner, problems_cons, TreeNode.problems]
    by_cases hspecial : attr.isSpecial = true
    · have hclass : attr.hasClass "special-block" = true := hspecial
      rw [if_pos hspecial, if_pos hspecial, if_pos hclass, problems_nil, List.append_nil]
      exact layoutSpecial_reports ctx attr
    · have hclass : ¬attr.hasClass "special-block" = true := hspecial
      rw [if_neg hspecial, if_neg hspecial, if_neg hclass, List.nil_append]
      split
      · exact reports_bind_pure (layoutDetails_reports content)
      · exact reports_bind_pure (layoutBlocks_reports content)
  | .raw format t => by
    rw [layoutBlock, Block.shownInner, problems_cons, problems_nil, List.append_nil]
    exact layoutRawBlock_reports ctx format t
  | .code .. | .rule => by
    rw [layoutBlock, Block.shownInner]
    exact reports_pure

theorem layoutDetails_reports : ∀ blocks : List Block,
    (layoutDetails ctx blocks).Reports (problems ctx (shownBlocks blocks))
  | [] => by
    rw [layoutDetails, shownBlocks]
    exact reports_pure
  | block :: more => by
    rw [shownBlocks, problems_append]
    exact layoutDetails_reports_cons (layoutBlock_reports block) (layoutBlocks_reports more)

/-- The layout of blocks reports the problems of the nodes that it shows. -/
theorem layoutBlocks_reports : ∀ blocks : List Block,
    (layoutBlocks ctx blocks).Reports (problems ctx (shownBlocks blocks))
  | [] => by
    rw [layoutBlocks, shownBlocks]
    exact reports_pure
  | block :: more => by
    rw [layoutBlocks, shownBlocks, problems_append]
    exact reports_bind (layoutBlock_reports block) fun _ =>
      reports_bind_pure (layoutBlocks_reports more)

theorem layoutItem_reports : ∀ item : List Block,
    (layoutItem ctx item).Reports (problems ctx (shownBlocks item))
  | [] => by
    rw [layoutItem, shownBlocks]
    exact reports_pure
  | block :: more => by
    rw [shownBlocks, problems_append]
    exact layoutItem_reports_cons (layoutBlock_reports block) (layoutBlocks_reports more)

theorem layoutItems_reports : ∀ items : List (List Block),
    (layoutItems ctx items).Reports (problems ctx (shownItems items))
  | [] => by
    rw [layoutItems, shownItems]
    exact reports_pure
  | item :: more => by
    rw [layoutItems, shownItems, problems_append]
    exact reports_bind (layoutItem_reports item) fun _ =>
      reports_bind_pure (layoutItems_reports more)

end

end Layout

namespace TreeNode

/-- Is something wrong with the node itself? Page source is left in the tree, a table cannot be laid
out, the site does not know a label, or there is nothing to make a special block of. -/
def isFaulty (labels : LabelIndex) : TreeNode → Bool
  | .inline (.raw format t) | .block (.raw format t) =>
    format.isTex || format.isTable && (Grid.ofText? t).isNone
  | .inline (.crossRef _ _ label) => (labels.get? label).isNone
  | .block (.div attr _) =>
    attr.isSpecial && attr.get? "block" != some ("polynomialtable" : Text)
  | _ => false

def complaint : TreeNode → Text
  | .inline (.raw _ t) | .block (.raw _ t) => "unparsed LaTeX at render time: " ++ Text.trim t
  | .inline (.crossRef _ content label) =>
    "unresolved label " ++ label ++
      " (link text " ++ Text.quoted (Text.trim (plainText content)) ++ ")"
  | .block (.div attr _) =>
    "unknown special block " ++ Text.quoted ((attr.get? "block").getD [])
  | _ => []

end TreeNode

namespace Layout

variable (ctx : LayoutContext)

theorem rawProblems_eq (format : Format) (t : Text) :
    rawProblems ctx format t =
      if format.isTex || format.isTable && (Grid.ofText? t).isNone then [.unparsed ctx.stem t]
      else [] := by
  unfold rawProblems tableProblems
  cases htable : format.isTable with
  | true =>
    have htex : format.isTex = false := by
      rw [Format.isTable, beq_iff_eq] at htable
      simp [Format.isTex, htable]
    cases hgrid : Grid.ofText? t <;> simp [htex]
  | false => simp

theorem labelProblems_eq (label text : Text) :
    labelProblems ctx label text =
      if (ctx.labels.get? label).isNone then
        [⟨.error, ctx.stem, "unresolved label " ++ label ++
          " (link text " ++ Text.quoted (Text.trim text) ++ ")"⟩]
      else [] := by
  unfold labelProblems LabelIndex.resolve
  cases ctx.labels.get? label <;> rfl

theorem specialProblems_eq (attr : Attr) :
    specialProblems ctx attr =
      if attr.get? "block" != some ("polynomialtable" : Text) then
        [⟨.error, ctx.stem,
          "unknown special block " ++ Text.quoted ((attr.get? "block").getD [])⟩]
      else [] := by
  unfold specialProblems
  cases attr.get? "block" with
  | none => simp
  | some kind => by_cases hkind : kind = ("polynomialtable" : Text) <;> simp [hkind]

end Layout

/-- A faulty node is one problem and any other node is none. -/
theorem TreeNode.problems_eq (ctx : LayoutContext) : ∀ node : TreeNode,
    node.problems ctx =
      if node.isFaulty ctx.labels then [⟨.error, ctx.stem, node.complaint⟩] else []
  | .inline (.raw format t) | .block (.raw format t) => Layout.rawProblems_eq ctx format t
  | .inline (.crossRef _ content label) => Layout.labelProblems_eq ctx label (plainText content)
  | .block (.div attr _) => by
    rw [problems, Layout.specialProblems_eq]
    by_cases hspecial : attr.isSpecial = true
    · simp only [isFaulty, hspecial, if_pos, Bool.true_and, complaint]
    · simp only [isFaulty, hspecial, Bool.false_and, Bool.false_eq_true, if_false]
  | .inline (.text _) | .inline (.styled ..) | .inline (.quoted ..) | .inline (.code ..)
  | .inline .space | .inline .softBreak | .inline .lineBreak | .inline (.math ..)
  | .inline (.link ..) | .inline (.image ..) | .inline (.note _) | .inline (.span ..)
  | .block (.plain _) | .block (.para _) | .block (.header ..) | .block (.code ..)
  | .block (.quote _) | .block (.bullets _) | .block (.numbered ..) | .block .rule => rfl

theorem problems_eq_map (ctx : LayoutContext) (nodes : List TreeNode) :
    problems ctx nodes =
      (nodes.filter (TreeNode.isFaulty ctx.labels)).map fun node =>
        ⟨.error, ctx.stem, node.complaint⟩ := by
  induction nodes with
  | nil => rfl
  | cons node more ih =>
    rw [problems_cons, ih, TreeNode.problems_eq]
    cases hfaulty : node.isFaulty ctx.labels <;> simp [hfaulty]

namespace Document

variable (site : SiteContext) (a : Artifact)

/-- The problems found on a page are those of the nodes that it shows. -/
theorem body_problems :
    (body site a).2 = problems (site.layoutContext a.record.stem) (shownBlocks a.blocks) :=
  Layout.layoutBlocks_reports _ a.blocks 0

/-- A page that can be finished at all reports its faulty nodes, each of them once and in the order
in which they are shown, as errors of the page itself, and it reports nothing else. -/
theorem make_diagnostics :
    (make site a).map (·.diagnostics) =
      (site.bibliography.section? (citationOrder a.blocks a.record.citations)).map fun _ =>
        ((shownBlocks a.blocks).filter (TreeNode.isFaulty site.labels)).map fun node =>
          ⟨.error, a.record.stem, node.complaint⟩ := by
  have hbody := (body_problems site a).trans (problems_eq_map _ _)
  unfold make
  cases site.bibliography.section? (citationOrder a.blocks a.record.citations) with
  | error e => rfl
  | ok references => exact congrArg Except.ok hbody

end Document

end TexCatalog
