import TexCatalog.Page.Document
import TexCatalog.Proofs.LayoutRules
import TexCatalog.Proofs.TreeNodes

/-!
# The pieces of a layout

A condition on pieces of markup holds of a whole page if it holds of what the layout makes of single
nodes. Only links and cross-references have attributes that are taken from the tree and name a
target; every other element is one that the condition has to allow in general.
-/

namespace TexCatalog

namespace Html

mutual

def inner : Html → List Html
  | .element _ _ content => pieces content
  | .text _ | .raw _ | .void .. => []

/-- The pieces of markup, each in front of the pieces inside it. -/
def pieces : List Html → List Html
  | [] => []
  | node :: more => node :: node.inner ++ pieces more

end

def AllPieces (H : Html → Prop) (nodes : List Html) : Prop := ∀ piece ∈ pieces nodes, H piece

def All (H : Html → Prop) (node : Html) : Prop := H node ∧ ∀ piece ∈ node.inner, H piece

section

variable {H : Html → Prop} {node : Html} {nodes more : List Html}

@[simp] theorem all_text {t : Text} : All H (text t) ↔ H (text t) := by simp [All, inner]

@[simp] theorem all_newline : All H newline ↔ H newline := all_text

@[simp] theorem all_raw {t : Text} : All H (raw t) ↔ H (raw t) := by simp [All, inner]

@[simp] theorem all_element {tag : Tag} {attrs : List Attribute} {content : List Html} :
    All H (element tag attrs content) ↔ H (element tag attrs content) ∧ AllPieces H content := by
  simp [All, AllPieces, inner]

@[simp] theorem all_void {tag : VoidTag} {attrs : List Attribute} :
    All H (void tag attrs) ↔ H (void tag attrs) := by simp [All, inner]

theorem pieces_append : pieces (nodes ++ more) = pieces nodes ++ pieces more := by
  induction nodes with
  | nil => simp [pieces]
  | cons node rest ih => simp [pieces, ih]

@[simp] theorem allPieces_nil : AllPieces H [] := by simp [AllPieces, pieces]

@[simp] theorem allPieces_cons : AllPieces H (node :: nodes) ↔ All H node ∧ AllPieces H nodes := by
  simp only [AllPieces, All, pieces, List.cons_append, List.forall_mem_cons,
    List.forall_mem_append, and_assoc]

@[simp] theorem allPieces_append :
    AllPieces H (nodes ++ more) ↔ AllPieces H nodes ∧ AllPieces H more := by
  simp only [AllPieces, pieces_append, List.forall_mem_append]

@[simp] theorem allPieces_flatMap {α : Type} {items : List α} {f : α → List Html} :
    AllPieces H (items.flatMap f) ↔ ∀ item ∈ items, AllPieces H (f item) := by
  induction items with
  | nil => simp
  | cons item rest ih => simp [ih]

@[simp] theorem allPieces_map {α : Type} {items : List α} {f : α → Html} :
    AllPieces H (items.map f) ↔ ∀ item ∈ items, All H (f item) := by
  induction items with
  | nil => simp
  | cons item rest ih => simp [ih]

/-- Only texts are trimmed where there are no raw pieces. -/
theorem AllPieces.trimEnd (htext : ∀ t, H (.text t)) (hraw : ∀ t, ¬H (.raw t))
    (h : AllPieces H nodes) : AllPieces H (trimEnd nodes) := by
  induction nodes with
  | nil => simp [Html.trimEnd]
  | cons node more ih =>
    rw [allPieces_cons] at h
    unfold Html.trimEnd
    split
    · split
      · unfold trimText
        split <;> simp [htext]
      · next t => exact absurd (all_raw.1 h.1) (hraw t)
      · exact allPieces_cons.2 ⟨h.1, allPieces_nil⟩
    · exact allPieces_cons.2 ⟨h.1, ih h.2⟩

end

end Html

open Html

def TreeNode.IsRawHtml : TreeNode → Prop
  | .inline (.raw format _) => format.isHtml = true
  | .block (.raw format _) => format.isHtml = true
  | _ => False

namespace Layout

/-- Conditions on the nodes of a tree and on pieces of markup: what a layout makes of a node that
satisfies the one satisfies the other. -/
structure Rules (ctx : LayoutContext) (P : TreeNode → Prop) (H : Html → Prop) : Prop where
  text (t : Text) : H (.text t)
  void (tag : VoidTag) (attrs : List Attribute) : H (.void tag attrs)
  element {tag : Tag} (attrs : List Attribute) (content : List Html) : tag ≠ .a →
    H (.element tag attrs content)
  anchor {attrs : List Attribute} (content : List Html) :
    (∀ a ∈ attrs, a.name = ("href" : Text) ∨ a.name = ("class" : Text)) →
    H (.element .a attrs content)
  link {attr : Attr} {content : List Inline} {target : Target} (n : Nat) :
    P (.inline (.link attr content target)) → H (.element .a
      (⟨"href", target.url⟩ :: titleAttribute target.title ++ attr.toAttributes)
      (layoutInlines ctx content n).1)
  crossRef {attr : Attr} {content : List Inline} {label : Text} (href : Text)
    (shown : List Html) : P (.inline (.crossRef attr content label)) →
    H (.element .a (⟨"href", href⟩ :: (attr.addClass "crossref").toAttributes) shown)
  noRaw (t : Text) : ¬H (.raw t)
  notRaw {node : TreeNode} : P node → ¬node.IsRawHtml

def Holds (H : Html → Prop) (markup : List Html) (notes : List (List Html)) : Prop :=
  AllPieces H markup ∧ ∀ note ∈ notes, AllPieces H note

section

variable {H : Html → Prop} {markup rest : List Html} {notes later : List (List Html)}

theorem Holds.append (h : Holds H markup notes) (hrest : Holds H rest later) :
    Holds H (markup ++ rest) (notes ++ later) := by
  refine ⟨allPieces_append.2 ⟨h.1, hrest.1⟩, fun note hnote => ?_⟩
  rcases List.mem_append.1 hnote with hnote | hnote
  · exact h.2 note hnote
  · exact hrest.2 note hnote

theorem Holds.within {outer : List Html} (h : Holds H markup notes)
    (houter : AllPieces H markup → AllPieces H outer) : Holds H outer notes := ⟨houter h.1, h.2⟩

theorem ensures_holds (h : AllPieces H markup) : Ensures (Pure.pure markup) (Holds H) :=
  ensures_pure ⟨h, by simp⟩

theorem ensures_reported {d : Diagnostic} (h : AllPieces H markup) :
    Ensures (report d >>= fun _ => Pure.pure markup) (Holds H) :=
  ensures_bind_pure (ensures_report (P := fun _ notes => notes = []) rfl)
    fun _ notes hnotes => ⟨h, by simp [hnotes]⟩

end

section

variable {ctx : LayoutContext} {P : TreeNode → Prop} {H : Html → Prop}

section

variable (hrules : Rules ctx P H)

include hrules

theorem Rules.newline : H Html.newline := hrules.text _

theorem Rules.grid (g : Grid) : AllPieces H [g.toHtml] := by
  have hcell (c : Grid.Cell) : All H c.toHtml := by
    cases c <;> simp [Grid.Cell.toHtml, hrules.element, hrules.text]
  have hnewline : H Html.newline := hrules.newline
  simp [Grid.toHtml, hrules.element, hnewline, hcell]

theorem Rules.math (backend : MathBackend) (formula : Text) :
    AllPieces H [backend.inline formula] ∧ AllPieces H [backend.display formula] := by
  cases backend <;>
    simp [MathBackend.inline, MathBackend.display, hrules.element, hrules.text]

theorem Rules.recordTable : AllPieces H (recordTable ctx) := by
  have hname (id : Text) (fields : Fields) : All H (recordName ctx.labels id fields) := by
    unfold recordName
    split
    · simp [hrules.anchor, hrules.text]
    · simp [hrules.text]
  have hnewline := hrules.newline
  simp [Layout.recordTable, recordRow, recordColumns, hname, hrules.element, hrules.text, hnewline]

theorem Rules.unparsed (t : Text) : (layoutUnparsed ctx t).Ensures (Holds H) :=
  ensures_reported (by simp [hrules.element, hrules.text])

theorem Rules.table (t : Text) : (layoutTable ctx t).Ensures (Holds H) := by
  unfold layoutTable
  split
  · next grid _ => exact ensures_holds (hrules.grid grid)
  · exact hrules.unparsed t

theorem Rules.rawInline {format : Format} (hformat : ¬format.isHtml = true) (t : Text) :
    (layoutRawInline ctx format t).Ensures (Holds H) := by
  unfold layoutRawInline
  split
  · exact hrules.table t
  · split
    · exact hrules.unparsed t
    · exact ensures_holds allPieces_nil

theorem Rules.rawBlock {format : Format} (hformat : ¬format.isHtml = true) (t : Text) :
    (layoutRawBlock ctx format t).Ensures (Holds H) := by
  have hnewline := hrules.newline
  unfold layoutRawBlock
  split
  · refine ensures_bind_pure (hrules.table t) fun _ _ h => h.within fun h => ?_
    simp [h, hnewline]
  · split
    · refine ensures_bind_pure (hrules.unparsed t) fun _ _ h => h.within fun h => ?_
      simp [h, hnewline, hrules.element]
    · exact ensures_holds allPieces_nil

omit hrules in
theorem layoutTarget_notes (label text : Text) :
    (layoutTarget ctx label text).Ensures fun _ notes => notes = [] := by
  unfold layoutTarget
  split
  · exact ensures_pure rfl
  · exact ensures_bind_pure (ensures_report rfl) fun _ _ h => h

theorem Rules.special (attr : Attr) : (layoutSpecial ctx attr).Ensures (Holds H) := by
  unfold layoutSpecial
  simp only
  split
  · exact ensures_holds hrules.recordTable
  · exact ensures_reported allPieces_nil

theorem Rules.style (style : Style) {content : List Html} (h : AllPieces H content) :
    AllPieces H [openStyle style content] := by
  cases style <;> simp [openStyle, hrules.element, h]

end

mutual

theorem layoutInline_holds (hrules : Rules ctx P H) :
    ∀ node : Inline, (∀ n ∈ .inline node :: node.inner, P n) →
      (layoutInline ctx node).Ensures (Holds H)
  | .text _, _ | .code .., _ | .space, _ | .softBreak, _ | .lineBreak, _ | .image .., _ => by
    rw [layoutInline]
    exact ensures_holds (by simp [hrules.text, hrules.newline, hrules.element, hrules.void])
  | .math .inline t, _ => by
    rw [layoutInline]
    exact ensures_holds (hrules.math ctx.math t).1
  | .math .display t, _ => by
    rw [layoutInline]
    exact ensures_holds (hrules.math ctx.math t).2
  | .raw format t, h => by
    rw [layoutInline]
    exact hrules.rawInline (hrules.notRaw (List.forall_mem_cons.1 h).1) t
  | .styled style content, h => by
    rw [layoutInline]
    refine ensures_bind_pure (layoutInlines_holds hrules content (List.forall_mem_cons.1 h).2)
      fun _ _ h => ?_
    exact h.within (hrules.style style)
  | .quoted _ content, h => by
    rw [layoutInline]
    refine ensures_bind_pure (layoutInlines_holds hrules content (List.forall_mem_cons.1 h).2)
      fun _ _ h => ?_
    exact h.within fun h => by simp [h, hrules.text]
  | .link attr content target, h => by
    rw [List.forall_mem_cons] at h
    rw [layoutInline]
    have hcontent : (layoutInlines ctx content).Ensures fun shown notes =>
        Holds H shown notes ∧ ∃ n, (layoutInlines ctx content n).1 = shown :=
      fun n => ⟨layoutInlines_holds hrules content h.2 n, n, rfl⟩
    refine ensures_bind_pure hcontent fun shown notes hshown => ?_
    obtain ⟨hshown, n, rfl⟩ := hshown
    exact hshown.within fun hall => by
      exact allPieces_cons.2 ⟨all_element.2 ⟨hrules.link n h.1, hall⟩, allPieces_nil⟩
  | .span attr content, h => by
    rw [layoutInline]
    split
    · exact ensures_holds (by simp [layoutIcon, hrules.element])
    · refine ensures_bind_pure (layoutInlines_holds hrules content (List.forall_mem_cons.1 h).2)
        fun _ _ h => ?_
      exact h.within fun h => by simp [h, hrules.element]
  | .crossRef attr content label, h => by
    rw [List.forall_mem_cons] at h
    rw [layoutInline]
    refine ensures_bind (layoutTarget_notes label _) fun href notes hnotes => ?_
    subst hnotes
    refine ensures_bind_pure (layoutInlines_holds hrules content h.2) fun shown _ hshown => ?_
    refine hshown.within fun hall => ?_
    by_cases hempty : content.isEmpty
    · rw [if_pos hempty]
      refine allPieces_cons.2 ⟨all_element.2 ⟨hrules.crossRef href _ h.1, ?_⟩, allPieces_nil⟩
      simp [hrules.text]
    · rw [if_neg hempty]
      exact allPieces_cons.2 ⟨all_element.2 ⟨hrules.crossRef href _ h.1, hall⟩, allPieces_nil⟩
  | .note content, h => by
    rw [layoutInline]
    refine ensures_bind_pure
      (ensures_collect (layoutBlocks_holds hrules content (List.forall_mem_cons.1 h).2))
      fun n notes h => ?_
    obtain ⟨markup, inner, h, rfl⟩ := h
    refine ⟨by simp [noteMark, hrules.element, hrules.anchor, hrules.text], fun note hnote => ?_⟩
    rcases List.mem_append.1 hnote with hnote | hnote
    · exact h.2 note hnote
    · rw [List.mem_singleton.1 hnote]
      exact h.1

theorem layoutInlines_holds (hrules : Rules ctx P H) :
    ∀ nodes : List Inline, (∀ n ∈ inlineNodes nodes, P n) →
      (layoutInlines ctx nodes).Ensures (Holds H)
  | [], _ => by
    rw [layoutInlines]
    exact ensures_holds allPieces_nil
  | node :: more, h => by
    rw [inlineNodes, List.forall_mem_append] at h
    rw [layoutInlines]
    refine ensures_bind (layoutInline_holds hrules node h.1) fun markup notes hnode => ?_
    exact ensures_bind_pure (layoutInlines_holds hrules more h.2)
      fun _ _ hmore => hnode.append hmore

theorem layoutBlock_holds (hrules : Rules ctx P H) :
    ∀ block : Block, (∀ n ∈ .block block :: block.inner, P n) →
      (layoutBlock ctx block).Ensures (Holds H)
  | .plain content, h | .para content, h => by
    rw [layoutBlock]
    refine ensures_bind_pure (layoutInlines_holds hrules content (List.forall_mem_cons.1 h).2)
      fun _ _ h => ?_
    exact h.within fun h => by simp [h, hrules.element, hrules.newline]
  | .header _ _ content, h => by
    rw [layoutBlock]
    refine ensures_bind_pure (layoutInlines_holds hrules content (List.forall_mem_cons.1 h).2)
      fun _ _ h => ?_
    exact h.within fun h => by simp [h, headingTag, hrules.element, hrules.newline]
  | .code .., _ | .rule, _ => by
    rw [layoutBlock]
    exact ensures_holds
      (by simp [layoutCode, hrules.element, hrules.text, hrules.newline, hrules.void])
  | .raw format t, h => by
    rw [layoutBlock]
    exact hrules.rawBlock (hrules.notRaw (List.forall_mem_cons.1 h).1) t
  | .quote content, h => by
    rw [layoutBlock]
    refine ensures_bind_pure (layoutBlocks_holds hrules content (List.forall_mem_cons.1 h).2)
      fun _ _ h => ?_
    exact h.within fun h => by simp [h, hrules.element, hrules.newline]
  | .bullets items, h | .numbered _ items, h => by
    rw [layoutBlock]
    refine ensures_bind_pure (layoutItems_holds hrules items (List.forall_mem_cons.1 h).2)
      fun _ _ h => ?_
    exact h.within fun h => by simp [h, hrules.element, hrules.newline]
  | .div attr content, h => by
    rw [List.forall_mem_cons] at h
    rw [layoutBlock]
    split
    · exact hrules.special attr
    · split
      · refine ensures_bind_pure (layoutDetails_holds hrules content h.2) fun _ _ h => ?_
        exact h.within fun h => by simp [h, hrules.element, hrules.newline]
      · refine ensures_bind_pure (layoutBlocks_holds hrules content h.2) fun _ _ h => ?_
        refine h.within fun h => ?_
        have htag : (if attr.hasClass "figure" then Tag.figure else Tag.div) ≠ .a := by
          split <;> simp
        generalize (if attr.hasClass "figure" then Tag.figure else Tag.div) = tag at htag ⊢
        by_cases hempty : content.isEmpty
        · simp [hempty, hrules.element _ _ htag, hrules.newline]
        · simp [hempty, h, hrules.element _ _ htag, hrules.newline]

theorem layoutDetails_holds (hrules : Rules ctx P H) :
    ∀ blocks : List Block, (∀ n ∈ blockNodes blocks, P n) →
      (layoutDetails ctx blocks).Ensures (Holds H)
  | [], _ => by
    rw [layoutDetails]
    exact ensures_holds (by simp [hrules.element, hrules.newline])
  | block :: more, h => by
    rw [blockNodes, List.forall_mem_append] at h
    refine ensures_layoutDetails (layoutBlock_holds hrules block h.1)
      (layoutBlocks_holds hrules more h.2) (fun summary notes rest later hpara hrest => ?_)
      fun markup notes rest later hblock hrest => ?_
    · refine (hpara.append hrest).within fun h => ?_
      simp only [List.cons_append, List.nil_append, allPieces_cons, all_element] at h ⊢
      exact ⟨⟨hrules.element _ _ (by simp), h.1.2⟩, h.2⟩
    · refine (hblock.append hrest).within fun h => ?_
      simpa [hrules.element, hrules.newline] using h

/-- All pieces of the layout of blocks, and of the notes in it, satisfy the condition. -/
theorem layoutBlocks_holds (hrules : Rules ctx P H) :
    ∀ blocks : List Block, (∀ n ∈ blockNodes blocks, P n) →
      (layoutBlocks ctx blocks).Ensures (Holds H)
  | [], _ => by
    rw [layoutBlocks]
    exact ensures_holds allPieces_nil
  | block :: more, h => by
    rw [blockNodes, List.forall_mem_append] at h
    rw [layoutBlocks]
    refine ensures_bind (layoutBlock_holds hrules block h.1) fun markup notes hblock => ?_
    exact ensures_bind_pure (layoutBlocks_holds hrules more h.2)
      fun _ _ hmore => hblock.append hmore

theorem layoutItem_holds (hrules : Rules ctx P H) :
    ∀ item : List Block, (∀ n ∈ blockNodes item, P n) →
      (layoutItem ctx item).Ensures (Holds H)
  | [], _ => by
    rw [layoutItem]
    exact ensures_holds allPieces_nil
  | block :: more, h => by
    rw [blockNodes, List.forall_mem_append] at h
    refine ensures_layoutItem (layoutBlock_holds hrules block h.1)
      (layoutBlocks_holds hrules more h.2) (fun markup notes _ hpara => ?_)
      (fun markup notes _ hplain => ?_)
      fun markup notes rest later hblock hrest => hblock.append hrest
    · exact hpara.within fun h => (all_element.1 (allPieces_cons.1 h).1).2
    · exact hplain.within fun h => (allPieces_append.1 h).1

theorem layoutItems_holds (hrules : Rules ctx P H) :
    ∀ items : List (List Block), (∀ n ∈ itemNodes items, P n) →
      (layoutItems ctx items).Ensures (Holds H)
  | [], _ => by
    rw [layoutItems]
    exact ensures_holds allPieces_nil
  | item :: more, h => by
    rw [itemNodes, List.forall_mem_append] at h
    rw [layoutItems]
    refine ensures_bind (layoutItem_holds hrules item h.1) fun markup notes hitem => ?_
    refine ensures_bind_pure (layoutItems_holds hrules more h.2) fun rest later hmore => ?_
    refine (hitem.append hmore).within fun h => ?_
    rw [allPieces_append] at h
    simp [h.1, h.2, hrules.element, hrules.newline]

end

theorem Rules.noteItems (hrules : Rules ctx P H) {notes : List (List Html)}
    (h : ∀ note ∈ notes, AllPieces H note) (n : Nat) : AllPieces H (noteItems n notes) := by
  induction notes generalizing n with
  | nil => simp [Layout.noteItems]
  | cons content more ih =>
    have hcontent := (h content (List.mem_cons_self ..)).trimEnd hrules.text hrules.noRaw
    have hmore := ih (fun note hnote => h note (List.mem_cons_of_mem _ hnote)) (n + 1)
    simp [Layout.noteItems, noteItem, hcontent, hmore, hrules.element, hrules.anchor, hrules.text,
      hrules.newline]

theorem Rules.noteSection (hrules : Rules ctx P H) {notes : List (List Html)}
    (h : ∀ note ∈ notes, AllPieces H note) : AllPieces H (noteSection notes) := by
  unfold Layout.noteSection
  split
  · exact allPieces_nil
  · simp [hrules.noteItems h, hrules.element, hrules.void, hrules.newline]

end

end Layout

def SiteContext.layoutContext (site : SiteContext) (stem : Text) : LayoutContext :=
  ⟨stem, site.labels, site.records, site.math⟩

/-- All pieces of the body of a page, notes included, satisfy the condition. -/
theorem Document.body_all {site : SiteContext} {a : Artifact} {P : TreeNode → Prop}
    {H : Html → Prop} (hrules : Layout.Rules (site.layoutContext a.record.stem) P H)
    (h : ∀ node ∈ blockNodes a.blocks, P node) : AllPieces H (body site a).1 := by
  have hblocks := Layout.layoutBlocks_holds hrules a.blocks h 0
  exact allPieces_append.2 ⟨hblocks.1, hrules.noteSection hblocks.2⟩

end TexCatalog
