import TexCatalog.Page.Layout
import TexCatalog.Proofs.TreeNodes

/-!
# Numbered notes

The notes of a tree are numbered in the order in which they end, so the notes inside a note come
before it. To number a tree is to put its mark in the place of every note and to keep the content of
the note beside the number. The numbers are those behind a given one, without a gap, and numbering
makes no block of a block of another kind.
-/

namespace TexCatalog

structure NumberedNote where
  number : Nat
  content : List Block

def markNode (number : Nat) : Inline := .raw ⟨"html"⟩ (Layout.noteMark number).print

/-! What a page does not show is not numbered. -/

mutual

def numberInline (n : Nat) : Inline → Inline × List NumberedNote
  | .styled style content =>
    let r := numberInlines n content
    (.styled style r.1, r.2)
  | .quoted kind content =>
    let r := numberInlines n content
    (.quoted kind r.1, r.2)
  | .link attr content target =>
    let r := numberInlines n content
    (.link attr r.1 target, r.2)
  | .span attr content =>
    if attr.isIcon then (.span attr content, [])
    else
      let r := numberInlines n content
      (.span attr r.1, r.2)
  | .crossRef attr content label =>
    let r := numberInlines n content
    (.crossRef attr r.1 label, r.2)
  | .note content =>
    let r := numberBlocks n content
    let number := n + r.2.length + 1
    (markNode number, r.2 ++ [⟨number, r.1⟩])
  | .image attr content target => (.image attr content target, [])
  | .text t => (.text t, [])
  | .code attr t => (.code attr t, [])
  | .space => (.space, [])
  | .softBreak => (.softBreak, [])
  | .lineBreak => (.lineBreak, [])
  | .math kind t => (.math kind t, [])
  | .raw format t => (.raw format t, [])

def numberInlines (n : Nat) : List Inline → List Inline × List NumberedNote
  | [] => ([], [])
  | node :: more =>
    let r := numberInline n node
    let rest := numberInlines (n + r.2.length) more
    (r.1 :: rest.1, r.2 ++ rest.2)

def numberBlock (n : Nat) : Block → Block × List NumberedNote
  | .plain content =>
    let r := numberInlines n content
    (.plain r.1, r.2)
  | .para content =>
    let r := numberInlines n content
    (.para r.1, r.2)
  | .header level attr content =>
    let r := numberInlines n content
    (.header level attr r.1, r.2)
  | .quote content =>
    let r := numberBlocks n content
    (.quote r.1, r.2)
  | .div attr content =>
    if attr.isSpecial then (.div attr content, [])
    else
      let r := numberBlocks n content
      (.div attr r.1, r.2)
  | .bullets items =>
    let r := numberItems n items
    (.bullets r.1, r.2)
  | .numbered numbering items =>
    let r := numberItems n items
    (.numbered numbering r.1, r.2)
  | .code attr t => (.code attr t, [])
  | .raw format t => (.raw format t, [])
  | .rule => (.rule, [])

/-- Blocks with marks in the place of the notes, and the notes in the order in which they end. The
first one has the number behind `n`. -/
def numberBlocks (n : Nat) : List Block → List Block × List NumberedNote
  | [] => ([], [])
  | block :: more =>
    let r := numberBlock n block
    let rest := numberBlocks (n + r.2.length) more
    (r.1 :: rest.1, r.2 ++ rest.2)

def numberItems (n : Nat) : List (List Block) → List (List Block) × List NumberedNote
  | [] => ([], [])
  | item :: more =>
    let r := numberBlocks n item
    let rest := numberItems (n + r.2.length) more
    (r.1 :: rest.1, r.2 ++ rest.2)

end

/-! ### The numbers -/

def TreeNode.isNote : TreeNode → Bool
  | .inline (.note _) => true
  | _ => false

/-- The notes of some nodes have the numbers behind `n` in order. -/
def CountedFrom (n : Nat) (nodes : List TreeNode) (notes : List NumberedNote) : Prop :=
  notes.map (·.number) = List.range' (n + 1) (nodes.countP TreeNode.isNote)

section

variable {n : Nat} {nodes more : List TreeNode} {notes later : List NumberedNote}

theorem CountedFrom.length_eq (h : CountedFrom n nodes notes) :
    notes.length = nodes.countP TreeNode.isNote := by
  rw [← List.length_map (f := (·.number)), h, List.length_range']

theorem countedFrom_nil : CountedFrom n [] [] := rfl

theorem CountedFrom.cons {node : TreeNode} (h : CountedFrom n nodes notes)
    (hnode : node.isNote = false) : CountedFrom n (node :: nodes) notes := by
  rw [CountedFrom, List.countP_cons_of_neg (by simp [hnode])]
  exact h

theorem CountedFrom.append (h : CountedFrom n nodes notes)
    (hmore : CountedFrom (n + notes.length) more later) :
    CountedFrom n (nodes ++ more) (notes ++ later) := by
  rw [CountedFrom, List.map_append, List.countP_append, h, hmore, h.length_eq,
    Nat.add_right_comm, List.range'_append_1]

/-- A note ends behind the notes inside it. -/
theorem CountedFrom.note {content : List Block} {shown : List Block}
    (h : CountedFrom n nodes notes) :
    CountedFrom n (.inline (.note content) :: nodes)
      (notes ++ [⟨n + notes.length + 1, shown⟩]) := by
  rw [CountedFrom, List.map_append, h, List.countP_cons_of_pos rfl, List.range'_concat,
    h.length_eq]
  simp [Nat.add_right_comm]

end

mutual

theorem numberInline_counted (n : Nat) : ∀ node : Inline,
    CountedFrom n (.inline node :: node.shownInner) (numberInline n node).2
  | .styled _ content | .quoted _ content | .link _ content _ | .crossRef _ content _ => by
    rw [Inline.shownInner, numberInline]
    exact (numberInlines_counted n content).cons rfl
  | .span attr content => by
    rw [Inline.shownInner, numberInline]
    split
    · exact countedFrom_nil.cons rfl
    · exact (numberInlines_counted n content).cons rfl
  | .note content => by
    rw [Inline.shownInner, numberInline]
    exact (numberBlocks_counted n content).note
  | .image .. | .text _ | .code .. | .space | .softBreak | .lineBreak | .math .. | .raw .. => by
    rw [Inline.shownInner, numberInline]
    exact countedFrom_nil.cons rfl

theorem numberInlines_counted (n : Nat) : ∀ nodes : List Inline,
    CountedFrom n (shownInlines nodes) (numberInlines n nodes).2
  | [] => by
    rw [shownInlines, numberInlines]
    exact countedFrom_nil
  | node :: more => by
    rw [shownInlines, numberInlines]
    exact (numberInline_counted n node).append (numberInlines_counted _ more)

theorem numberBlock_counted (n : Nat) : ∀ block : Block,
    CountedFrom n (.block block :: block.shownInner) (numberBlock n block).2
  | .plain content | .para content | .header _ _ content => by
    rw [Block.shownInner, numberBlock]
    exact (numberInlines_counted n content).cons rfl
  | .quote content => by
    rw [Block.shownInner, numberBlock]
    exact (numberBlocks_counted n content).cons rfl
  | .div attr content => by
    rw [Block.shownInner, numberBlock]
    split
    · exact countedFrom_nil.cons rfl
    · exact (numberBlocks_counted n content).cons rfl
  | .bullets items | .numbered _ items => by
    rw [Block.shownInner, numberBlock]
    exact (numberItems_counted n items).cons rfl
  | .code .. | .raw .. | .rule => by
    rw [Block.shownInner, numberBlock]
    exact countedFrom_nil.cons rfl

/-- The notes of blocks have the numbers behind `n` in order, one for every note that is shown. -/
theorem numberBlocks_counted (n : Nat) : ∀ blocks : List Block,
    CountedFrom n (shownBlocks blocks) (numberBlocks n blocks).2
  | [] => by
    rw [shownBlocks, numberBlocks]
    exact countedFrom_nil
  | block :: more => by
    rw [shownBlocks, numberBlocks]
    exact (numberBlock_counted n block).append (numberBlocks_counted _ more)

theorem numberItems_counted (n : Nat) : ∀ items : List (List Block),
    CountedFrom n (shownItems items) (numberItems n items).2
  | [] => by
    rw [shownItems, numberItems]
    exact countedFrom_nil
  | item :: more => by
    rw [shownItems, numberItems]
    exact (numberBlocks_counted n item).append (numberItems_counted _ more)

end

/-! ### The kinds of the blocks -/

theorem numberInlines_isEmpty (n : Nat) (nodes : List Inline) :
    (numberInlines n nodes).1.isEmpty = nodes.isEmpty := by
  cases nodes <;> simp [numberInlines]

theorem numberBlocks_isEmpty (n : Nat) (blocks : List Block) :
    (numberBlocks n blocks).1.isEmpty = blocks.isEmpty := by
  cases blocks <;> simp [numberBlocks]

/-- Numbering makes no paragraph of anything else. -/
theorem numberBlock_eq_para {n : Nat} {block : Block} {heading : List Inline}
    (h : (numberBlock n block).1 = .para heading) : ∃ content, block = .para content := by
  cases block
  case para content => exact ⟨content, rfl⟩
  case div attr content =>
    rw [numberBlock] at h
    split at h <;> cases h
  all_goals
    rw [numberBlock] at h
    cases h

theorem numberBlock_eq_plain {n : Nat} {block : Block} {heading : List Inline}
    (h : (numberBlock n block).1 = .plain heading) : ∃ content, block = .plain content := by
  cases block
  case plain content => exact ⟨content, rfl⟩
  case div attr content =>
    rw [numberBlock] at h
    split at h <;> cases h
  all_goals
    rw [numberBlock] at h
    cases h

/-- What becomes an only block was one. -/
theorem numberBlocks_eq_singleton {n : Nat} {blocks : List Block} {only : Block}
    (h : (numberBlocks n blocks).1 = [only]) :
    ∃ block, blocks = [block] ∧ (numberBlock n block).1 = only := by
  cases blocks with
  | nil =>
    rw [numberBlocks] at h
    cases h
  | cons block more =>
    rw [numberBlocks] at h
    obtain ⟨hblock, hmore⟩ := List.cons.inj h
    have hempty := (numberBlocks_isEmpty (n + (numberBlock n block).2.length) more).symm.trans
      (List.isEmpty_iff.2 hmore)
    exact ⟨block, by rw [List.isEmpty_iff.1 hempty], hblock⟩

theorem numberBlocks_not_alone {n : Nat} {item : List Block}
    (h : ∀ content, item ≠ [.para content] ∧ item ≠ [.plain content]) (content : List Inline) :
    (numberBlocks n item).1 ≠ [.para content] ∧ (numberBlocks n item).1 ≠ [.plain content] := by
  constructor <;> intro hnumbered <;>
    obtain ⟨block, rfl, hblock⟩ := numberBlocks_eq_singleton hnumbered
  · obtain ⟨inner, rfl⟩ := numberBlock_eq_para hblock
    exact (h inner).1 rfl
  · obtain ⟨inner, rfl⟩ := numberBlock_eq_plain hblock
    exact (h inner).2 rfl

end TexCatalog
