import TexCatalog.Proofs.LayoutAnchors
import TexCatalog.Proofs.LayoutNodes

/-!
# Elements with an identifier

The elements of one kind that carry an identifier, in the order of the page. Only the nodes of the
tree and the notes bring identifiers to a page: what the layout makes up by itself has none.
-/

namespace TexCatalog

namespace Html

def isIdentified (tag : Tag) : Html → Bool
  | .element other attrs _ => decide (other = tag) && !(attributeIds attrs).isEmpty
  | .text _ | .raw _ | .void .. => false

def identified (tag : Tag) (nodes : List Html) : List Html :=
  (pieces nodes).filter (isIdentified tag)

section

variable {tag other : Tag} {t : Text} {attrs : List Attribute} {void : VoidTag}
  {content nodes more : List Html} {node : Html}

@[simp] theorem identified_nil : identified tag [] = [] := by simp [identified, pieces]

@[simp] theorem identified_append :
    identified tag (nodes ++ more) = identified tag nodes ++ identified tag more := by
  simp [identified, pieces_append]

theorem identified_cons :
    identified tag (node :: more) = identified tag [node] ++ identified tag more := by
  rw [← identified_append, List.singleton_append]

@[simp] theorem identified_text : identified tag (.text t :: more) = identified tag more := by
  simp [identified, pieces, inner, isIdentified]

@[simp] theorem identified_newline : identified tag (newline :: more) = identified tag more :=
  identified_text

@[simp] theorem identified_raw : identified tag (.raw t :: more) = identified tag more := by
  simp [identified, pieces, inner, isIdentified]

@[simp] theorem identified_void :
    identified tag (.void void attrs :: more) = identified tag more := by
  simp [identified, pieces, inner, isIdentified]

@[simp] theorem identified_element :
    identified tag (.element other attrs content :: more) =
      (if other = tag ∧ attributeIds attrs ≠ [] then [.element other attrs content] else []) ++
        identified tag content ++ identified tag more := by
  by_cases h : other = tag ∧ attributeIds attrs ≠ [] <;>
    simp [identified, pieces, inner, isIdentified, h]

@[simp] theorem attributeIds_cons_of_ne {a : Attribute} (h : a.name ≠ ("id" : Text)) :
    attributeIds (a :: attrs) = attributeIds attrs := by
  rw [attributeIds, List.filter_cons_of_neg (by simpa using h), attributeIds]

theorem identified_flatMap_eq_nil {α : Type} {items : List α} {f : α → List Html}
    (h : ∀ item ∈ items, identified tag (f item) = []) : identified tag (items.flatMap f) = [] := by
  induction items with
  | nil => exact identified_nil
  | cons item rest ih =>
    rw [List.forall_mem_cons] at h
    rw [List.flatMap_cons, identified_append, h.1, ih h.2, List.append_nil]

theorem identified_map_eq_nil {α : Type} {items : List α} {f : α → Html}
    (h : ∀ item ∈ items, identified tag [f item] = []) : identified tag (items.map f) = [] := by
  rw [List.map_eq_flatMap]
  exact identified_flatMap_eq_nil h

/-- Only texts are trimmed. -/
@[simp] theorem identified_trimEnd : identified tag (trimEnd nodes) = identified tag nodes := by
  induction nodes with
  | nil => rfl
  | cons node more ih =>
    unfold trimEnd
    split
    · next hmore =>
      rw [hmore, identified_nil] at ih
      split
      · unfold trimText
        split <;> simp [← ih]
      · unfold trimText
        split <;> simp [← ih]
      · have hcons : identified tag (node :: more) = identified tag [node] ++ identified tag more :=
          identified_cons
        rw [hcons, ← ih, List.append_nil]
    · rw [identified_cons, ih, ← identified_cons]

end

end Html

open Html

namespace Layout

variable {tag : Tag}

/-- Markup without an identified element of a kind, to which no notes belong. -/
def Bare (tag : Tag) (markup : List Html) (notes : List (List Html)) : Prop :=
  identified tag markup = [] ∧ notes = []

theorem identified_style (style : Style) (content : List Html) :
    identified tag [openStyle style content] = identified tag content := by
  cases style <;> simp [openStyle]

theorem identified_math (backend : MathBackend) (formula : Text) :
    identified tag [backend.inline formula] = [] ∧
      identified tag [backend.display formula] = [] := by
  cases backend <;>
    simp [MathBackend.inline, MathBackend.display]

theorem identified_grid (g : Grid) : identified tag [g.toHtml] = [] := by
  have hcell (c : Grid.Cell) : identified tag [c.toHtml] = [] := by
    cases c <;> simp [Grid.Cell.toHtml]
  have hcells (row : List Grid.Cell) : identified tag (row.map Grid.Cell.toHtml) = [] :=
    identified_map_eq_nil fun c _ => hcell c
  have hrows : identified tag (g.rows.flatMap fun row =>
      [.element .tr [] (row.map Grid.Cell.toHtml), .newline]) = [] :=
    identified_flatMap_eq_nil fun row _ => by simp [hcells]
  simp [Grid.toHtml, hrows]

section

variable (ctx : LayoutContext)

theorem identified_recordTable : identified tag (recordTable ctx) = [] := by
  have hname (id : Text) (fields : Fields) :
      identified tag [recordName ctx.labels id fields] = [] := by
    unfold recordName
    split <;> simp
  have hcells (names : List Text) (value : Text → Text) :
      identified tag (names.map fun name => .element .td [] [.text (value name)]) = [] :=
    identified_map_eq_nil fun _ _ => by simp
  have hheads : identified tag (recordColumns.map fun name => .element .th [] [.text name]) = [] :=
    identified_map_eq_nil fun _ _ => by simp
  have hrows : identified tag
      (ctx.records.entries.flatMap fun e => recordRow ctx.labels e.1 e.2) = [] :=
    identified_flatMap_eq_nil fun e _ => by
      simp only [recordRow]
      simp [hname, hcells, -List.map_tail]
  simp only [recordTable]
  simp [hheads, hrows]

theorem layoutUnparsed_bare (t : Text) : (layoutUnparsed ctx t).Ensures (Bare tag) :=
  ensures_bind_pure (ensures_report (P := fun _ notes => notes = []) rfl)
    fun _ _ hnotes => ⟨by simp, hnotes⟩

theorem layoutTable_bare (t : Text) : (layoutTable ctx t).Ensures (Bare tag) := by
  unfold layoutTable
  split
  · next grid _ => exact ensures_pure ⟨identified_grid grid, rfl⟩
  · exact layoutUnparsed_bare ctx t

theorem layoutRawInline_bare (format : Format) (t : Text) :
    (layoutRawInline ctx format t).Ensures (Bare tag) := by
  unfold layoutRawInline
  split
  · exact layoutTable_bare ctx t
  · split
    · exact layoutUnparsed_bare ctx t
    · split <;> exact ensures_pure ⟨by simp, rfl⟩

theorem layoutRawBlock_bare (format : Format) (t : Text) :
    (layoutRawBlock ctx format t).Ensures (Bare tag) := by
  have htable : (layoutTable ctx t).Ensures (Bare tag) := layoutTable_bare ctx t
  have hunparsed : (layoutUnparsed ctx t).Ensures (Bare tag) := layoutUnparsed_bare ctx t
  unfold layoutRawBlock
  split
  · exact ensures_bind_pure htable fun _ _ h => ⟨by simp [h.1], h.2⟩
  · split
    · exact ensures_bind_pure hunparsed fun _ _ h => ⟨by simp [h.1], h.2⟩
    · split <;> exact ensures_pure ⟨by simp, rfl⟩

theorem layoutSpecial_bare (attr : Attr) : (layoutSpecial ctx attr).Ensures (Bare tag) := by
  unfold layoutSpecial
  simp only
  split
  · exact ensures_pure ⟨identified_recordTable ctx, rfl⟩
  · exact ensures_bind_pure (ensures_report (P := fun _ notes => notes = []) rfl)
      fun _ _ hnotes => ⟨identified_nil, hnotes⟩

def inlineTags : List Tag := [.a, .span, .sup]

mutual

theorem layoutInline_identified (htag : ∀ other ∈ inlineTags, other ≠ tag) : ∀ node : Inline,
    (layoutInline ctx node).Ensures fun markup _ => identified tag markup = []
  | .styled style content => by
    rw [layoutInline]
    refine ensures_bind_pure (layoutInlines_identified htag content) fun _ _ h => ?_
    rw [identified_style, h]
  | .quoted _ content => by
    rw [layoutInline]
    exact ensures_bind_pure (layoutInlines_identified htag content) fun _ _ h => by simp [h]
  | .link _ content _ => by
    rw [layoutInline]
    exact ensures_bind_pure (layoutInlines_identified htag content) fun _ _ h => by
      simp [h, htag .a (by simp [inlineTags])]
  | .span attr content => by
    rw [layoutInline]
    split
    · exact ensures_pure (by simp [layoutIcon])
    · exact ensures_bind_pure (layoutInlines_identified htag content) fun _ _ h => by
        simp [h, htag .span (by simp [inlineTags])]
  | .crossRef _ content label => by
    rw [layoutInline]
    refine ensures_bind (ensures_any _) fun href _ _ => ?_
    refine ensures_bind_pure (layoutInlines_identified htag content) fun shown _ h => ?_
    by_cases hempty : content.isEmpty <;>
      simp [hempty, h, htag .a (by simp [inlineTags])]
  | .note content => by
    rw [layoutInline]
    exact ensures_bind_pure (ensures_any _) fun n _ _ => by
      simp [noteMark, htag .sup (by simp [inlineTags])]
  | .raw format t => by
    rw [layoutInline]
    exact (layoutRawInline_bare ctx format t).mono fun _ _ h => h.1
  | .math .inline t => by
    rw [layoutInline]
    exact ensures_pure (identified_math ctx.math t).1
  | .math .display t => by
    rw [layoutInline]
    exact ensures_pure (identified_math ctx.math t).2
  | .text _ | .code .. | .space | .softBreak | .lineBreak | .image .. => by
    rw [layoutInline]
    exact ensures_pure (by simp)

theorem layoutInlines_identified (htag : ∀ other ∈ inlineTags, other ≠ tag) : ∀ nodes : List Inline,
    (layoutInlines ctx nodes).Ensures fun markup _ => identified tag markup = []
  | [] => by
    rw [layoutInlines]
    exact ensures_pure identified_nil
  | node :: more => by
    rw [layoutInlines]
    refine ensures_bind (layoutInline_identified htag node) fun _ _ hnode => ?_
    exact ensures_bind_pure (layoutInlines_identified htag more) fun _ _ hmore => by
      rw [identified_append, hnode, hmore, List.append_nil]

end

end

end Layout

end TexCatalog
