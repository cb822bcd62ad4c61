import Mathlib.Data.List.Forall2
import Mathlib.Tactic.MkIffOfInductiveProp
import TexCatalog.Proofs.IdentifiedElements
import TexCatalog.Proofs.NoteNumbers
import TexCatalog.Proofs.TrimmedMarkup

/-!
# The marks of notes

A note is shown by a mark where it stands. The layout of a tree prints what the layout of the
numbered tree prints, which has no notes, and it leaves the contents of the notes in the order of
their numbers. In the markup and in these contents there is one mark for every note.
-/

namespace TexCatalog

open Html

namespace Layout

/-- The value of a step does not depend on the notes in front of it. -/
def Steady {α : Type} (x : Layout α) : Prop := ∀ n m, (x n).1 = (x m).1

/-- The same is printed of the markup of a note as of the layout of its numbered content. -/
def NotePrints (ctx : LayoutContext) (note : NumberedNote) (markup : List Html) : Prop :=
  ∀ m, printAll (layoutBlocks ctx note.content m).1 = printAll markup

/-- What a step leaves that has `n` notes in front of it, and the layout `shown` of the numbered
tree: the two print the same, the notes of the step are the numbered ones, there is one mark for
each of them, and there are no items. -/
@[mk_iff]
structure Shows (ctx : LayoutContext) (n : Nat) (x shown : Layout (List Html))
    (numbered : List NumberedNote) : Prop where
  prints (m : Nat) : printAll (shown m).1 = printAll (x n).1
  noNotes (m : Nat) : (shown m).2.notes = []
  notes : List.Forall₂ (NotePrints ctx) numbered (x n).2.notes
  marks : (identified .sup (x n).1 ++ (x n).2.notes.flatMap (identified .sup)).Perm
    (numbered.map fun note => noteMark note.number)
  items : identified .li (x n).1 = []
  noteItems : ∀ note ∈ (x n).2.notes, identified .li note = []

/-- Markup around other markup, of which the same is printed exactly if the same is printed of the
other, and which has the same marks and items. -/
structure Frame (g : List Html → List Html) : Prop where
  prints (a b : List Html) : printAll (g a) = printAll (g b) ↔ printAll a = printAll b
  marks (a : List Html) : identified .sup (g a) = identified .sup a
  items (a : List Html) : identified .li (g a) = identified .li a

structure Frame₂ (g : List Html → List Html → List Html) : Prop where
  prints {a b a' b' : List Html} : printAll a = printAll a' → printAll b = printAll b' →
    printAll (g a b) = printAll (g a' b')
  marks (a b : List Html) : identified .sup (g a b) = identified .sup a ++ identified .sup b
  items (a b : List Html) : identified .li (g a b) = identified .li a ++ identified .li b

def Unmarked (tag : Tag) (attrs : List Attribute) : Prop :=
  ∀ marked ∈ [Tag.sup, Tag.li], ¬(tag = marked ∧ attributeIds attrs ≠ [])

section

variable {tag : Tag} {attrs : List Attribute}

theorem frame_element (h : Unmarked tag attrs) : Frame fun a => [.element tag attrs a] where
  prints a b := by simp [print]
  marks a := by simp [h .sup (by simp)]
  items a := by simp [h .li (by simp)]

theorem frame_line (h : Unmarked tag attrs) : Frame fun a => [.element tag attrs a, newline] where
  prints a b := by simp [print]
  marks a := by simp [h .sup (by simp)]
  items a := by simp [h .li (by simp)]

theorem frame_lines (h : Unmarked tag attrs) :
    Frame fun a => [.element tag attrs (newline :: a), newline] where
  prints a b := by simp [print]
  marks a := by simp [h .sup (by simp)]
  items a := by simp [h .li (by simp)]

theorem frame_quoted (opening closing : Text) :
    Frame fun a => .text opening :: a ++ [.text closing] where
  prints a b := by simp [print]
  marks a := by simp
  items a := by simp

theorem frame_plain : Frame fun a => a ++ [newline] where
  prints a b := by simp
  marks a := by simp
  items a := by simp

theorem frame_style (style : Style) : Frame fun a => [openStyle style a] where
  prints a b := by cases style <;> simp [openStyle, print]
  marks a := identified_style style a
  items a := identified_style style a

theorem frame₂_append : Frame₂ fun a b => a ++ b where
  prints ha hb := by simp [ha, hb]
  marks a b := by simp
  items a b := by simp

theorem frame₂_item : Frame₂ fun a b => .element .li [] a :: newline :: b where
  prints ha hb := by simp [print, ha, hb]
  marks a b := by simp
  items a b := by simp

theorem frame₂_summary : Frame₂ fun a b => .element .summary [] a :: newline :: b where
  prints ha hb := by simp [print, ha, hb]
  marks a b := by simp
  items a b := by simp

theorem frame₂_bareSummary : Frame₂ fun a b => .element .summary [] [] :: newline :: a ++ b where
  prints ha hb := by simp [print, ha, hb]
  marks a b := by simp
  items a b := by simp

end

section

variable {ctx : LayoutContext} {n : Nat} {x y shown rest : Layout (List Html)}
  {numbered later : List NumberedNote}

theorem run_bind {α β : Type} (x : Layout α) (f : α → Layout β) (n : Nat) :
    (x >>= f) n = ((f (x n).1 (n + (x n).2.notes.length)).1,
      (x n).2.append (f (x n).1 (n + (x n).2.notes.length)).2) := rfl

/-- A step of which the value is put into a form leaves what it leaves without that. -/
theorem run_bind_pure {α β : Type} (x : Layout α) (g : α → β) (n : Nat) :
    (x >>= fun a => Pure.pure (g a)) n = (g (x n).1, (x n).2) := by
  change (g (x n).1, (x n).2.append {}) = _
  simp [Leavings.append]

theorem run_bind_bind_pure {α β γ : Type} (x : Layout α) (y : Layout β) (g : α → β → γ) (n : Nat) :
    (x >>= fun a => y >>= fun b => Pure.pure (g a b)) n =
      (g (x n).1 (y (n + (x n).2.notes.length)).1,
        (x n).2.append (y (n + (x n).2.notes.length)).2) := by
  rw [run_bind, run_bind_pure]

/-- Steady markup without notes, marks and items. -/
theorem shows_bare (hsteady : Steady x) (hmarks : x.Ensures (Bare .sup))
    (hitems : x.Ensures (Bare .li)) : Shows ctx n x x [] where
  prints m := by rw [hsteady m n]
  noNotes m := (hmarks m).2
  notes := by
    rw [(hmarks n).2]
    exact .nil
  marks := by
    rw [(hmarks n).1, (hmarks n).2]
    exact .nil
  items := (hitems n).1
  noteItems := by simp [(hmarks n).2]

theorem shows_pure {markup : List Html} (hmarks : identified .sup markup = [])
    (hitems : identified .li markup = []) :
    Shows ctx n (Pure.pure markup) (Pure.pure markup) [] :=
  shows_bare (fun _ _ => rfl) (ensures_pure ⟨hmarks, rfl⟩) (ensures_pure ⟨hitems, rfl⟩)

theorem shows_within_iff {g : List Html → List Html} (hg : Frame g) :
    Shows ctx n (x >>= fun a => Pure.pure (g a)) (shown >>= fun a => Pure.pure (g a)) numbered ↔
      Shows ctx n x shown numbered := by
  simp only [shows_iff, run_bind_pure, hg.prints, hg.marks, hg.items]

theorem Shows.both {g : List Html → List Html → List Html} (h : Shows ctx n x shown numbered)
    (hrest : Shows ctx (n + numbered.length) y rest later) (hg : Frame₂ g) :
    Shows ctx n (x >>= fun a => y >>= fun b => Pure.pure (g a b))
      (shown >>= fun a => rest >>= fun b => Pure.pure (g a b)) (numbered ++ later) := by
  rw [h.notes.length_eq] at hrest
  constructor
  · intro m
    simp only [run_bind_bind_pure]
    exact hg.prints (h.prints m) (hrest.prints _)
  · intro m
    simp only [run_bind_bind_pure]
    exact List.append_eq_nil_iff.2 ⟨h.noNotes m, hrest.noNotes _⟩
  · simp only [run_bind_bind_pure]
    exact List.rel_append h.notes hrest.notes
  · simp only [run_bind_bind_pure, Leavings.append, hg.marks, List.flatMap_append,
      List.map_append]
    refine .trans ?_ (h.marks.append hrest.marks)
    simp only [List.append_assoc]
    exact .append_left _ (List.perm_append_comm_assoc _ _ _)
  · simp only [run_bind_bind_pure, hg.items, h.items, hrest.items, List.append_nil]
  · simp only [run_bind_bind_pure]
    exact List.forall_mem_append.2 ⟨h.noteItems, hrest.noteItems⟩

theorem Shows.of_para {content shownContent : List Inline}
    (h : Shows ctx n (layoutBlock ctx (.para content)) (layoutBlock ctx (.para shownContent))
      numbered) :
    Shows ctx n (layoutInlines ctx content) (layoutInlines ctx shownContent) numbered := by
  rw [layoutBlock, layoutBlock] at h
  exact (shows_within_iff (frame_line (by simp [Unmarked]))).1 h

theorem Shows.of_plain {content shownContent : List Inline}
    (h : Shows ctx n (layoutBlock ctx (.plain content)) (layoutBlock ctx (.plain shownContent))
      numbered) :
    Shows ctx n (layoutInlines ctx content) (layoutInlines ctx shownContent) numbered := by
  rw [layoutBlock, layoutBlock] at h
  exact (shows_within_iff frame_plain).1 h

/-- Where a reference points does not depend on the notes. -/
theorem layoutTarget_run (ctx : LayoutContext) (label : Text) : ∃ href, ∀ text n,
    (layoutTarget ctx label text n).1 = href ∧ (layoutTarget ctx label text n).2.notes = [] := by
  unfold layoutTarget
  cases LabelIndex.resolve ctx.labels label with
  | resolved href => exact ⟨href, fun _ _ => ⟨rfl, rfl⟩⟩
  | deferred label => exact ⟨'#' :: label, fun _ _ => ⟨rfl, rfl⟩⟩

theorem Shows.targeted {label : Text} {f g : Text → Layout (List Html)} (text other : Text)
    (h : ∀ href, Shows ctx n (f href) (g href) numbered) :
    Shows ctx n (layoutTarget ctx label text >>= f) (layoutTarget ctx label other >>= g)
      numbered := by
  obtain ⟨href, hrun⟩ := layoutTarget_run ctx label
  have h := h href
  simp only [shows_iff, run_bind, (hrun _ _).1, Leavings.append, (hrun _ _).2, List.length_nil,
    Nat.add_zero, List.nil_append] at h ⊢
  exact h

theorem layoutInline_markNode (number : Nat) :
    layoutInline ctx (markNode number) = Pure.pure [.raw (noteMark number).print] := by
  have htable : Format.isTable ⟨"html"⟩ = false := by simp [Format.isTable]
  have htex : Format.isTex ⟨"html"⟩ = false := by simp [Format.isTex]
  have hhtml : Format.isHtml ⟨"html"⟩ = true := by simp [Format.isHtml]
  rw [markNode, layoutInline, layoutRawInline, htable, htex, hhtml]
  rfl

/-- The mark of a note stands where the note did, and the note behind the notes inside it. -/
theorem Shows.note {content shownContent : List Block}
    (h : Shows ctx n (layoutBlocks ctx content) (layoutBlocks ctx shownContent) numbered) :
    Shows ctx n (layoutInline ctx (.note content))
      (layoutInline ctx (markNode (n + numbered.length + 1)))
      (numbered ++ [⟨n + numbered.length + 1, shownContent⟩]) := by
  have hrun : layoutInline ctx (.note content) n =
      ([noteMark (n + numbered.length + 1)],
        ⟨(layoutBlocks ctx content n).2.notes ++ [(layoutBlocks ctx content n).1],
          (layoutBlocks ctx content n).2.diagnostics⟩) := by
    rw [layoutInline, run_bind_pure, h.notes.length_eq]
    rfl
  have hmark (number : Nat) : identified .sup [noteMark number] = [noteMark number] := by
    simp [noteMark, attributeIds]
  rw [layoutInline_markNode]
  constructor
  · intro m
    rw [hrun]
    simp [Pure.pure, Layout.pure, print]
  · exact fun _ => rfl
  · rw [hrun]
    exact List.rel_append h.notes (.cons h.prints .nil)
  · rw [hrun, hmark, List.map_append, List.flatMap_append, List.flatMap_singleton]
    refine List.perm_append_comm.trans (.append (.trans ?_ h.marks) (.refl _))
    exact List.perm_append_comm
  · rw [hrun]
    simp [noteMark]
  · rw [hrun]
    refine List.forall_mem_append.2 ⟨h.noteItems, ?_⟩
    exact List.forall_mem_singleton.2 h.items

end

section

variable {ctx : LayoutContext} {block : Block} {more item : List Block} {heading : List Inline}

theorem layoutRawInline_steady (format : Format) (t : Text) :
    Steady (layoutRawInline ctx format t) := by
  unfold layoutRawInline layoutTable
  split
  · split <;> exact fun _ _ => rfl
  · split
    · exact fun _ _ => rfl
    · split <;> exact fun _ _ => rfl

theorem layoutRawBlock_steady (format : Format) (t : Text) :
    Steady (layoutRawBlock ctx format t) := by
  unfold layoutRawBlock layoutTable
  split
  · split <;> exact fun _ _ => rfl
  · split
    · exact fun _ _ => rfl
    · split <;> exact fun _ _ => rfl

theorem layoutSpecial_steady (attr : Attr) : Steady (layoutSpecial ctx attr) := by
  unfold layoutSpecial
  simp only
  split <;> exact fun _ _ => rfl

theorem layoutDetails_of_not_para (h : ∀ heading, block ≠ .para heading) :
    layoutDetails ctx (block :: more) = (layoutBlock ctx block >>= fun markup =>
      layoutBlocks ctx more >>= fun rest =>
        Pure.pure (.element .summary [] [] :: newline :: markup ++ rest)) := by
  unfold layoutDetails
  split
  · next heading _ heq =>
    cases heq
    exact absurd rfl (h heading)
  · next heq =>
    cases heq
    rfl
  · next heq => cases heq

/-- An item that is not only a paragraph is laid out like any blocks. -/
theorem layoutItem_of_not_alone (h : ∀ content, item ≠ [.para content] ∧ item ≠ [.plain content]) :
    layoutItem ctx item = layoutBlocks ctx item := by
  unfold layoutItem
  split
  · next content => exact absurd rfl (h content).1
  · next content => exact absurd rfl (h content).2
  · rw [layoutBlocks]
  · rw [layoutBlocks]

end

variable (ctx : LayoutContext)

mutual

theorem layoutInline_shows (n : Nat) : ∀ node : Inline,
    Shows ctx n (layoutInline ctx node) (layoutInline ctx (numberInline n node).1)
      (numberInline n node).2
  | .styled style content => by
    rw [numberInline, layoutInline, layoutInline]
    exact (shows_within_iff (frame_style style)).2 (layoutInlines_shows n content)
  | .quoted _ content => by
    rw [numberInline, layoutInline, layoutInline]
    exact (shows_within_iff (frame_quoted _ _)).2 (layoutInlines_shows n content)
  | .link _ content _ => by
    rw [numberInline, layoutInline, layoutInline]
    exact (shows_within_iff (frame_element (by simp [Unmarked]))).2 (layoutInlines_shows n content)
  | .span attr content => by
    rw [numberInline]
    cases hicon : icon? attr with
    | some icon =>
      rw [if_pos (isIcon_of_icon? hicon), layoutInline, hicon]
      exact shows_pure (by simp [layoutIcon]) (by simp [layoutIcon])
    | none =>
      rw [icon?_eq_none.1 hicon, if_neg Bool.false_ne_true, layoutInline, layoutInline, hicon]
      exact (shows_within_iff (frame_element (by simp [Unmarked]))).2
        (layoutInlines_shows n content)
  | .crossRef _ content label => by
    rw [numberInline, layoutInline, layoutInline]
    refine Shows.targeted _ _ fun href => ?_
    simp only [numberInlines_isEmpty]
    by_cases hempty : content.isEmpty = true
    · simp only [hempty, if_true]
      obtain rfl := List.isEmpty_iff.1 hempty
      rw [numberInlines, layoutInlines]
      exact shows_pure (by simp) (by simp)
    · simp only [hempty]
      exact (shows_within_iff (frame_element (by simp [Unmarked]))).2
        (layoutInlines_shows n content)
  | .note content => by
    rw [numberInline]
    exact (layoutBlocks_shows n content).note
  | .raw format t => by
    rw [numberInline, layoutInline]
    exact shows_bare (layoutRawInline_steady format t) (layoutRawInline_bare ctx format t)
      (layoutRawInline_bare ctx format t)
  | .math .inline t => by
    rw [numberInline, layoutInline]
    exact shows_pure (identified_math ctx.math t).1 (identified_math ctx.math t).1
  | .math .display t => by
    rw [numberInline, layoutInline]
    exact shows_pure (identified_math ctx.math t).2 (identified_math ctx.math t).2
  | .text _ | .code .. | .space | .softBreak | .lineBreak | .image .. => by
    rw [numberInline, layoutInline]
    exact shows_pure (by simp) (by simp)

theorem layoutInlines_shows (n : Nat) : ∀ nodes : List Inline,
    Shows ctx n (layoutInlines ctx nodes) (layoutInlines ctx (numberInlines n nodes).1)
      (numberInlines n nodes).2
  | [] => by
    rw [numberInlines, layoutInlines]
    exact shows_pure identified_nil identified_nil
  | node :: more => by
    rw [numberInlines, layoutInlines, layoutInlines]
    exact (layoutInline_shows n node).both (layoutInlines_shows _ more) frame₂_append

theorem layoutBlock_shows (n : Nat) : ∀ block : Block,
    Shows ctx n (layoutBlock ctx block) (layoutBlock ctx (numberBlock n block).1)
      (numberBlock n block).2
  | .plain content => by
    rw [numberBlock, layoutBlock, layoutBlock]
    exact (shows_within_iff frame_plain).2 (layoutInlines_shows n content)
  | .para content => by
    rw [numberBlock, layoutBlock, layoutBlock]
    exact (shows_within_iff (frame_line (by simp [Unmarked]))).2 (layoutInlines_shows n content)
  | .header level attr content => by
    rw [numberBlock, layoutBlock, layoutBlock]
    exact (shows_within_iff (frame_line (by simp [Unmarked, headingTag]))).2
      (layoutInlines_shows n content)
  | .quote content => by
    rw [numberBlock, layoutBlock, layoutBlock]
    exact (shows_within_iff (frame_lines (by simp [Unmarked]))).2 (layoutBlocks_shows n content)
  | .bullets items | .numbered _ items => by
    rw [numberBlock, layoutBlock, layoutBlock]
    exact (shows_within_iff (frame_lines (by simp [Unmarked]))).2 (layoutItems_shows n items)
  | .div attr content => by
    rw [numberBlock]
    by_cases hspecial : attr.isSpecial = true
    · have hclass : attr.hasClass "special-block" = true := hspecial
      rw [if_pos hspecial, layoutBlock, if_pos hclass]
      exact shows_bare (layoutSpecial_steady attr) (layoutSpecial_bare ctx attr)
        (layoutSpecial_bare ctx attr)
    · have hclass : ¬attr.hasClass "special-block" = true := hspecial
      rw [if_neg hspecial, layoutBlock, if_neg hclass, layoutBlock, if_neg hclass]
      split
      · exact (shows_within_iff (frame_lines (by simp [Unmarked]))).2
          (layoutDetails_shows n content)
      · simp only [numberBlocks_isEmpty]
        by_cases hempty : content.isEmpty = true
        · simp only [hempty, if_true]
          obtain rfl := List.isEmpty_iff.1 hempty
          rw [numberBlocks, layoutBlocks]
          refine shows_pure ?_ ?_ <;> split <;> simp
        · simp only [hempty]
          refine (shows_within_iff (frame_lines ?_)).2 (layoutBlocks_shows n content)
          split <;> simp [Unmarked]
  | .raw format t => by
    rw [numberBlock, layoutBlock]
    exact shows_bare (layoutRawBlock_steady format t) (layoutRawBlock_bare ctx format t)
      (layoutRawBlock_bare ctx format t)
  | .code .. | .rule => by
    rw [numberBlock, layoutBlock]
    exact shows_pure (by simp [layoutCode]) (by simp [layoutCode])

theorem layoutDetails_shows (n : Nat) : ∀ blocks : List Block,
    Shows ctx n (layoutDetails ctx blocks) (layoutDetails ctx (numberBlocks n blocks).1)
      (numberBlocks n blocks).2
  | [] => by
    rw [numberBlocks, layoutDetails]
    exact shows_pure (by simp) (by simp)
  | block :: more => by
    have hblock := layoutBlock_shows n block
    have hmore := layoutBlocks_shows (n + (numberBlock n block).2.length) more
    rw [numberBlocks]
    by_cases hpara : ∃ heading, block = .para heading
    · obtain ⟨heading, rfl⟩ := hpara
      rw [numberBlock, layoutDetails, layoutDetails]
      exact hblock.of_para.both hmore frame₂_summary
    · have hother : ∀ heading, block ≠ .para heading := fun heading h => hpara ⟨heading, h⟩
      rw [layoutDetails_of_not_para hother,
        layoutDetails_of_not_para fun heading h => hpara (numberBlock_eq_para h)]
      exact hblock.both hmore frame₂_bareSummary

/-- The layout of blocks shows their notes as it shows the numbered blocks. -/
theorem layoutBlocks_shows (n : Nat) : ∀ blocks : List Block,
    Shows ctx n (layoutBlocks ctx blocks) (layoutBlocks ctx (numberBlocks n blocks).1)
      (numberBlocks n blocks).2
  | [] => by
    rw [numberBlocks, layoutBlocks]
    exact shows_pure identified_nil identified_nil
  | block :: more => by
    rw [numberBlocks, layoutBlocks, layoutBlocks]
    exact (layoutBlock_shows n block).both (layoutBlocks_shows _ more) frame₂_append

theorem layoutItem_shows (n : Nat) : ∀ item : List Block,
    Shows ctx n (layoutItem ctx item) (layoutItem ctx (numberBlocks n item).1)
      (numberBlocks n item).2
  | [] => by
    rw [numberBlocks, layoutItem]
    exact shows_pure identified_nil identified_nil
  | block :: more => by
    have hblock := layoutBlock_shows n block
    have hmore := layoutBlocks_shows (n + (numberBlock n block).2.length) more
    by_cases halone : ∀ content, block :: more ≠ [.para content] ∧ block :: more ≠ [.plain content]
    · rw [layoutItem_of_not_alone halone, layoutItem_of_not_alone (numberBlocks_not_alone halone),
        numberBlocks, layoutBlocks, layoutBlocks]
      exact hblock.both hmore frame₂_append
    · simp only [not_forall, not_and_or, not_not] at halone
      obtain ⟨content, hpara | hplain⟩ := halone
      · cases hpara
        rw [numberBlocks, numberBlock, numberBlocks, layoutItem, layoutItem, List.append_nil]
        exact hblock.of_para
      · cases hplain
        rw [numberBlocks, numberBlock, numberBlocks, layoutItem, layoutItem, List.append_nil]
        exact hblock.of_plain

theorem layoutItems_shows (n : Nat) : ∀ items : List (List Block),
    Shows ctx n (layoutItems ctx items) (layoutItems ctx (numberItems n items).1)
      (numberItems n items).2
  | [] => by
    rw [numberItems, layoutItems]
    exact shows_pure identified_nil identified_nil
  | item :: more => by
    rw [numberItems, layoutItems, layoutItems]
    exact (layoutItem_shows n item).both (layoutItems_shows _ more) frame₂_item

end

end Layout

end TexCatalog
