import Mathlib.Data.List.Nodup
import TexCatalog.Proofs.NoteMarks

/-!
# The notes of a page

A page shows a note by a mark where it stands and by an item in the list of notes. The page shows
the numbered tree, and the items are the contents of the notes, each under its own number.
-/

namespace TexCatalog

open Html

namespace Layout

def backLink (number : Nat) : Html :=
  .element .a [⟨"href", "#fnref-" ++ noteNumber number⟩, ⟨"class", "footnote-back"⟩]
    [.text ['\u21a9']]

/-- The item has the number of a note and holds its content without the blanks at the end, with the
link back behind it. -/
def IsItemOf (ctx : LayoutContext) (note : NumberedNote) (item : Html) : Prop :=
  ∃ content,
    item = .element .li [⟨"id", "fn-" ++ noteNumber note.number⟩]
      (content ++ [.text " ", backLink note.number]) ∧
    printAll content = Text.trimEnd (printAll (layoutBlocks ctx note.content 0).1)

variable {ctx : LayoutContext} {numbered : List NumberedNote} {notes others : List (List Html)}
  {n : Nat}

theorem identified_noteItem (tag : Tag) (content : List Html) :
    identified tag (noteItem n content) =
      (if Tag.li = tag then [.element .li [⟨"id", "fn-" ++ noteNumber n⟩]
        (trimEnd content ++ [.text " ", backLink n])] else []) ++ identified tag content := by
  have hids : attributeIds [⟨"id", "fn-" ++ noteNumber n⟩] ≠ [] := by simp [attributeIds]
  simp only [noteItem, backLink, identified_element, hids, and_true, ne_eq, not_false_eq_true]
  simp

theorem identified_noteSection (tag : Tag) (notes : List (List Html)) :
    identified tag (noteSection notes) = identified tag (noteItems 1 notes) := by
  unfold noteSection
  split
  · next hempty =>
    rw [List.isEmpty_iff.1 hempty, noteItems]
  · simp

theorem marks_noteItems (n : Nat) (notes : List (List Html)) :
    identified .sup (noteItems n notes) = notes.flatMap (identified .sup) := by
  induction notes generalizing n with
  | nil => rw [noteItems, identified_nil, List.flatMap_nil]
  | cons content more ih =>
    rw [noteItems, identified_append, identified_noteItem, ih, List.flatMap_cons]
    simp

/-- The list has one item for every note, in the order of their numbers. -/
theorem items_noteItems (h : List.Forall₂ (NotePrints ctx) numbered notes)
    (hnumbers : numbered.map (·.number) = List.range' n numbered.length)
    (hnone : ∀ note ∈ notes, identified .li note = []) :
    List.Forall₂ (IsItemOf ctx) numbered (identified .li (noteItems n notes)) := by
  induction h generalizing n with
  | nil =>
    rw [noteItems, identified_nil]
    exact .nil
  | @cons note content later more hcontent hmore ih =>
    rw [List.forall_mem_cons] at hnone
    rw [List.map_cons, List.length_cons, List.range'_succ, List.cons.injEq] at hnumbers
    rw [noteItems, identified_append, identified_noteItem, hnone.1, if_pos rfl]
    refine .cons ⟨trimEnd content, ?_, ?_⟩ (ih hnumbers.2 hnone.2)
    · rw [hnumbers.1]
    · rw [(trimEnd_trimsTo content).1, hcontent 0]

theorem printAll_noteItems (h : List.Forall₂ (fun a b => printAll a = printAll b) notes others)
    (n : Nat) : printAll (noteItems n notes) = printAll (noteItems n others) := by
  induction h generalizing n with
  | nil => rfl
  | @cons a b later more hab _ ih =>
    simp [noteItems, noteItem, print, ih, (trimEnd_trimsTo a).1, (trimEnd_trimsTo b).1, hab]

/-- The list is printed as any list of which the notes are printed alike. -/
theorem printAll_noteSection
    (h : List.Forall₂ (fun a b => printAll a = printAll b) notes others) :
    printAll (noteSection notes) = printAll (noteSection others) := by
  have hempty : notes.isEmpty = others.isEmpty := by cases h <;> rfl
  unfold noteSection
  rw [hempty]
  split
  · rfl
  · simp [print, printAll_noteItems h]

end Layout

/-! ### The notes of a page -/

def Html.carries (id : Text) : Html → Bool
  | .element _ attrs _ => (attributeIds attrs).contains id
  | .text _ | .raw _ | .void .. => false

theorem Layout.noteNumber_inj {n m : Nat} : noteNumber n = noteNumber m ↔ n = m := by
  refine ⟨fun h => ?_, fun h => by rw [h]⟩
  simpa [noteNumber, Text.ofNat] using congrArg (Nat.ofDigitChars 10 · 0) h

theorem Layout.carries_noteMark (k n : Nat) :
    Html.carries ("fnref-" ++ noteNumber k) (noteMark n) = (n == k) := by
  have hids : attributeIds [⟨"id", "fnref-" ++ noteNumber n⟩, ⟨"class", "footnote-ref"⟩] =
      ["fnref-" ++ noteNumber n] := by simp [attributeIds]
  rw [Bool.eq_iff_iff, beq_iff_eq, ← noteNumber_inj, noteMark, Html.carries, hids,
    List.contains_iff_mem, List.mem_singleton, List.append_cancel_left_eq, eq_comm]

theorem Layout.IsItemOf.carries {ctx : LayoutContext} {note : NumberedNote} {item : Html}
    (h : IsItemOf ctx note item) (k : Nat) :
    Html.carries ("fn-" ++ noteNumber k) item = (note.number == k) := by
  obtain ⟨content, rfl, _⟩ := h
  have hids : attributeIds [⟨"id", "fn-" ++ noteNumber note.number⟩] =
      ["fn-" ++ noteNumber note.number] := by simp [attributeIds]
  rw [Bool.eq_iff_iff, beq_iff_eq, ← noteNumber_inj, Html.carries, hids,
    List.contains_iff_mem, List.mem_singleton, List.append_cancel_left_eq, eq_comm]

/-- Related rows have as many members with related properties. -/
theorem countP_eq_of_forall₂ {α β : Type} {R : α → β → Prop} {p : α → Bool} {q : β → Bool}
    {as : List α} {bs : List β} (h : List.Forall₂ R as bs) (hpq : ∀ a b, R a b → p a = q b) :
    as.countP p = bs.countP q := by
  induction h with
  | nil => rfl
  | cons hab _ ih => rw [List.countP_cons, List.countP_cons, ih, hpq _ _ hab]

/-- A page shows its notes by their numbers. The numbers are 1 to the count of the notes. The text
of the page is that of the numbered blocks and behind it the list of the numbered contents. There is
one mark for each number, and there are no others. The list has one item for each number in order,
and it holds the content of the note with this number. -/
theorem Document.body_notes (site : SiteContext) (a : Artifact) :
    let ctx := site.layoutContext a.record.stem
    let count := (shownBlocks a.blocks).countP TreeNode.isNote
    let numbered := numberBlocks 0 a.blocks
    let marks := identified .sup (body site a).1
    let items := identified .li (body site a).1
    numbered.2.map (·.number) = List.range' 1 count ∧
    printAll (body site a).1 = printAll (Layout.layoutBlocks ctx numbered.1 0).1 ++
      printAll (Layout.noteSection
        (numbered.2.map fun note => (Layout.layoutBlocks ctx note.content 0).1)) ∧
    marks.Perm ((List.range' 1 count).map Layout.noteMark) ∧
    List.Forall₂ (Layout.IsItemOf ctx) numbered.2 items ∧
    ∀ k ∈ List.range' 1 count,
      marks.countP (Html.carries ("fnref-" ++ Layout.noteNumber k)) = 1 ∧
      items.countP (Html.carries ("fn-" ++ Layout.noteNumber k)) = 1 := by
  intro ctx count numbered marks items
  have hcounted : CountedFrom 0 (shownBlocks a.blocks) numbered.2 := numberBlocks_counted 0 a.blocks
  have hshows := Layout.layoutBlocks_shows ctx 0 a.blocks
  have hbody : (body site a).1 = (Layout.layoutBlocks ctx a.blocks 0).1 ++
      Layout.noteSection (Layout.layoutBlocks ctx a.blocks 0).2.notes := rfl
  have hmarks : marks.Perm ((List.range' 1 count).map Layout.noteMark) := by
    have hnumbers : numbered.2.map (fun note => Layout.noteMark note.number) =
        (List.range' 1 count).map Layout.noteMark := by
      rw [← hcounted, List.map_map]
      rfl
    have hperm := hshows.marks
    rwa [← Layout.marks_noteItems 1, ← Layout.identified_noteSection, ← identified_append, ← hbody,
      hnumbers] at hperm
  have hitems : List.Forall₂ (Layout.IsItemOf ctx) numbered.2 items := by
    have hnumbers : numbered.2.map (·.number) = List.range' 1 numbered.2.length := by
      rw [hcounted.length_eq]
      exact hcounted
    have hforall := Layout.items_noteItems hshows.notes hnumbers hshows.noteItems
    rw [← Layout.identified_noteSection, ← List.nil_append (identified _ _), ← hshows.items,
      ← identified_append, ← hbody] at hforall
    exact hforall
  have hone {k : Nat} (hk : k ∈ List.range' 1 count) :
      (List.range' 1 count).countP (· == k) = 1 :=
    List.count_eq_one_of_mem List.nodup_range' hk
  refine ⟨hcounted, ?_, hmarks, hitems, fun k hk => ⟨?_, ?_⟩⟩
  · rw [hbody, printAll_append, ← hshows.prints 0]
    refine congrArg _ (Layout.printAll_noteSection ?_)
    rw [List.forall₂_map_right_iff]
    exact hshows.notes.flip.imp fun _ _ h => (h 0).symm
  · have hcarries : Html.carries ("fnref-" ++ Layout.noteNumber k) ∘ Layout.noteMark = (· == k) :=
      funext (Layout.carries_noteMark k)
    rw [hmarks.countP_eq, List.countP_map, hcarries, hone hk]
  · rw [← countP_eq_of_forall₂ hitems fun note item h => (h.carries k).symm, ← hone hk, ← hcounted,
      List.countP_map]
    rfl

end TexCatalog
