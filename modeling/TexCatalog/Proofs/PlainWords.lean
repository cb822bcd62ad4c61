import TexCatalog.Proofs.AuthorLists
import TexCatalog.Proofs.SpelledText
import TexCatalog.Tree.PlainText

/-!
# The words of plain text

A text without any of the marks of page source is made of words with runs of blanks between them.
The reader takes each of these as a whole: a word is one text, and a run is one space or one soft
break, however long it is. So nothing is left to merge, and what is read is what the words of the
text are made into directly, unless there are blanks at the ends or line breaks between the words.
-/

namespace TexCatalog

namespace Text

/-- The text with one space for each run of blanks: a blank in front of another one goes, and the
last one of a run becomes a space. -/
def collapse : Text → Text
  | [] => []
  | c :: s =>
    if c.isBlank then if s.head?.any Char.isBlank then collapse s else ' ' :: collapse s
    else c :: collapse s

theorem not_any_head {r : Text} (h : ∀ c ∈ r.head?, ¬c.isBlank) : ¬r.head?.any Char.isBlank :=
  fun hany =>
    have ⟨c, hc, hblank⟩ := (Option.any_eq_true _ _).1 hany
    h c hc hblank

theorem collapse_word {w : Text} (h : ∀ c ∈ w, ¬c.isBlank) (r : Text) :
    collapse (w ++ r) = w ++ collapse r := by
  induction w with
  | nil => rfl
  | cons c w ih =>
    rw [List.forall_mem_cons] at h
    rw [List.cons_append, collapse, if_neg h.1, ih h.2, List.cons_append]

theorem collapse_run {g r : Text} (hg : IsRun g) (hr : ∀ c ∈ r.head?, ¬c.isBlank) :
    collapse (g ++ r) = ' ' :: collapse r := by
  obtain ⟨hne, hblanks⟩ := hg
  induction g with
  | nil => exact absurd rfl hne
  | cons c g ih =>
    rw [List.forall_mem_cons] at hblanks
    rw [List.cons_append, collapse, if_pos hblanks.1]
    cases g with
    | nil =>
      rw [List.nil_append, if_neg (not_any_head hr)]
    | cons d g =>
      have hmore : (d :: g ++ r).head?.any Char.isBlank := hblanks.2 d (List.mem_cons_self ..)
      rw [if_pos hmore, ih (List.cons_ne_nil d g) hblanks.2]

theorem words_ne_nil {t : Text} (h : ¬∀ c ∈ t, c.isBlank) : words t ≠ [] := by
  induction t with
  | nil => exact absurd (List.forall_mem_nil _) h
  | cons c t ih =>
    by_cases hc : c.isBlank
    · have hwords : words (c :: t) = words t :=
        words_blanks (fun d hd => List.mem_singleton.1 hd ▸ hc) t
      rw [hwords]
      exact ih fun hall => h (List.forall_mem_cons.2 ⟨hc, hall⟩)
    · obtain ⟨part, parts, hparts⟩ :=
        List.exists_cons_of_ne_nil (splitWhere_ne_nil Char.isBlank t)
      rw [words, splitWhere, if_neg hc, hparts, consHead, List.filter_cons_of_pos (by simp)]
      exact List.cons_ne_nil _ _

theorem words_cut {w r : Text} (hne : w ≠ []) (h : ∀ c ∈ w, ¬c.isBlank)
    (hr : ∀ c ∈ r.head?, c.isBlank) : words (w ++ r) = w :: words r := by
  cases r with
  | nil => rw [List.append_nil, words_word hne h]; rfl
  | cons d r =>
    rw [words_append_blank (hr d rfl), words_word hne h, ← List.nil_append (d :: r),
      words_append_blank (hr d rfl)]
    rfl

theorem head_dropWhile {p : Char → Bool} {s : Text} {d : Char}
    (h : d ∈ (s.dropWhile p).head?) : ¬p d := by
  have hhead := List.head?_dropWhile_not p s
  rw [h] at hhead
  simpa using hhead

end Text

namespace Source

open Text

/-- A text without any of the marks of page source. -/
structure IsPlain (t : Text) : Prop where
  marks : ∀ c ∈ t, c ∉ ("\\$\x7b\x7d~%" : Text)
  pairs : ∀ pair ∈ [("--" : Text), "``", ['\'', '\'']], ¬pair <:+: t

instance (t : Text) : Decidable (IsPlain t) :=
  decidable_of_iff ((t.all fun c => !("\\$\x7b\x7d~%" : Text).contains c) ∧
      [("--" : Text), "``", ['\'', '\'']].all fun pair => !decide (pair <:+: t))
    ⟨fun ⟨hmarks, hpairs⟩ => ⟨by simpa using hmarks, by simpa using hpairs⟩,
      fun h => by simpa using And.intro h.marks h.pairs⟩

theorem IsPlain.part {part t : Text} (h : IsPlain t) (hpart : part <:+: t) : IsPlain part :=
  ⟨fun c hc => h.marks c (hpart.subset hc), fun pair hpair hoccurs =>
    h.pairs pair hpair (hoccurs.trans hpart)⟩

theorem IsPlain.isWord {w : Text} (h : IsPlain w) (hne : w ≠ []) (hblank : ∀ c ∈ w, ¬c.isBlank) :
    IsWord w := by
  refine ⟨hne, fun c hc => ⟨hblank c hc, h.marks c hc⟩, fun pair hpair hoccurs => ?_⟩
  obtain ⟨⟨a, b⟩, hcut⟩ := Option.isSome_iff_exists.1 hoccurs
  exact h.pairs pair hpair ⟨a, b, (cut?_eq hcut).symm⟩

def gapNode (g : Text) : Inline := if g.contains '\n' then .softBreak else .space

/-- The nodes for the words of a text and for the runs of blanks between them. -/
inductive ReadsAs : Text → List Inline → Prop
  | nil : ReadsAs [] []
  | word {w r : Text} {more : List Inline} : IsWord w → (∀ c ∈ r.head?, c.isBlank) →
    ReadsAs r more → ReadsAs (w ++ r) (.text w :: more)
  | gap {g r : Text} {more : List Inline} : IsRun g → (∀ c ∈ r.head?, ¬c.isBlank) →
    ReadsAs r more → ReadsAs (g ++ r) (gapNode g :: more)

/-- A text can be cut wherever blanks begin or end. -/
theorem IsPlain.exists_readsAs {t : Text} (h : IsPlain t) : ∃ nodes, ReadsAs t nodes := by
  induction hn : t.length using Nat.strongRecOn generalizing t with
  | ind n ih =>
    cases t with
    | nil => exact ⟨[], .nil⟩
    | cons c s =>
      have hrest {p : Char → Bool} (hc : p c) :
          ∃ nodes, ReadsAs ((c :: s).dropWhile p) nodes := by
        have hle := length_dropWhile_le p s
        have hshort : ((c :: s).dropWhile p).length < n := by
          rw [List.dropWhile_cons_of_pos hc, ← hn, List.length_cons]
          omega
        exact ih _ hshort (h.part (List.dropWhile_suffix p).isInfix) rfl
      by_cases hc : c.isBlank
      · obtain ⟨nodes, hnodes⟩ := hrest hc
        have hrun : IsRun ((c :: s).takeWhile Char.isBlank) :=
          ⟨by simp [hc], List.all_eq_true.1 List.all_takeWhile⟩
        have hread := ReadsAs.gap hrun (fun d hd => head_dropWhile hd) hnodes
        rw [List.takeWhile_append_dropWhile] at hread
        exact ⟨_, hread⟩
      · obtain ⟨nodes, hnodes⟩ := hrest (p := (!·.isBlank)) (by simpa using hc)
        have hword : IsWord ((c :: s).takeWhile (!·.isBlank)) := by
          refine (h.part (List.takeWhile_prefix _).isInfix).isWord (by simp [hc]) fun d hd => ?_
          simpa using List.all_eq_true.1 List.all_takeWhile d hd
        have hread := ReadsAs.word hword (fun d hd => by simpa using head_dropWhile hd) hnodes
        rw [List.takeWhile_append_dropWhile] at hread
        exact ⟨_, hread⟩

namespace ReadsAs

variable {t : Text} {nodes : List Inline}

theorem fragments_eq (h : ReadsAs t nodes) : fragments t = nodes := by
  induction h with
  | nil => exact fragments_nil
  | word hw hr _ ih =>
    rw [fragments_nodes (next?_word hw fun c hc => .inl (hr c hc)), ih]
    rfl
  | gap hg hr _ ih =>
    rw [fragments_nodes (next?_run hg.1 hg.2 hr), ih]
    rfl

/-- A word stands in front of the end or of blanks, and the node for blanks is no text. -/
theorem meets_text (h : ReadsAs t nodes) (ht : ∀ c ∈ t.head?, c.isBlank) (p : Place) (w : Text) :
    p.Meets (.text w) nodes := by
  cases h with
  | nil => simp [Place.Meets]
  | word hw =>
    obtain ⟨c, w, rfl⟩ := List.exists_cons_of_ne_nil hw.1
    exact absurd (ht c rfl) (hw.2.1 c (List.mem_cons_self ..)).1
  | gap =>
    rintro next ⟨⟩
    unfold gapNode
    split <;> trivial

theorem meets_gap (h : ReadsAs t nodes) (ht : ∀ c ∈ t.head?, ¬c.isBlank) (p : Place) (g : Text) :
    p.Meets (gapNode g) nodes := by
  cases h with
  | nil => simp [Place.Meets]
  | word =>
    rintro next ⟨⟩
    unfold gapNode
    split <;> trivial
  | gap hg =>
    obtain ⟨hne, hblanks⟩ := hg
    obtain ⟨c, g, rfl⟩ := List.exists_cons_of_ne_nil hne
    exact absurd (hblanks c (List.mem_cons_self ..)) (ht c rfl)

theorem normalize_eq (h : ReadsAs t nodes) : normalize nodes = nodes := by
  induction h with
  | nil => rfl
  | word _ hr hmore ih => exact (hmore.meets_text hr ⟨false, false, false⟩ _).normalize_cons ih
  | gap _ hr hmore ih => exact (hmore.meets_gap hr ⟨false, false, false⟩ _).normalize_cons ih

theorem readInlines_eq (h : ReadsAs t nodes) : readInlines t = nodes := by
  rw [readInlines, h.fragments_eq, h.normalize_eq]

theorem plainText_eq (h : ReadsAs t nodes) : plainText nodes = collapse t := by
  induction h with
  | nil => rfl
  | word hw _ _ ih =>
    rw [collapse_word fun c hc => (hw.2.1 c hc).1, ← ih]
    simp [plainText, Inline.plainText]
  | gap hg hr _ ih =>
    rw [collapse_run hg hr, ← ih]
    unfold gapNode
    split <;> simp [plainText, Inline.plainText]

/-- Blanks in front are one more node than the words have. -/
theorem eq_wordsToInlines (h : ReadsAs t nodes) (hline : '\n' ∉ t)
    (hlast : ∀ c ∈ t.getLast?, ¬c.isBlank) :
    nodes = (if t.head?.any Char.isBlank then [.space] else []) ++ wordsToInlines t := by
  induction h with
  | nil => rfl
  | @word w r more hw hr _ ih =>
    obtain ⟨c, w', rfl⟩ := List.exists_cons_of_ne_nil hw.1
    have hblank (d : Char) (hd : d ∈ c :: w') : ¬d.isBlank := (hw.2.1 d hd).1
    rw [List.cons_append, List.head?_cons, Option.any_some,
      if_neg (hblank c (List.mem_cons_self ..)), List.nil_append, wordsToInlines,
      ← List.cons_append, words_cut hw.1 hblank hr]
    cases r with
    | nil => rw [ih List.not_mem_nil (by simp)]; rfl
    | cons d r =>
      rw [List.getLast?_append_of_ne_nil _ (List.cons_ne_nil d r)] at hlast
      have hne : words (d :: r) ≠ [] := words_ne_nil fun hall =>
        hlast _ (List.getLast?_eq_some_getLast (List.cons_ne_nil d r)) (hall _ (List.getLast_mem _))
      obtain ⟨part, parts, hparts⟩ := List.exists_cons_of_ne_nil hne
      rw [ih (fun hmem => hline (List.mem_append_right _ hmem)) hlast, List.head?_cons,
        Option.any_some, if_pos (hr d rfl), wordsToInlines, hparts]
      rfl
  | @gap g r more hg hr _ ih =>
    have hne : r ≠ [] := by
      rintro rfl
      rw [List.append_nil] at hlast
      exact hlast _ (List.getLast?_eq_some_getLast hg.1) (hg.2 _ (List.getLast_mem _))
    obtain ⟨c, g', rfl⟩ := List.exists_cons_of_ne_nil hg.1
    obtain ⟨d, r', rfl⟩ := List.exists_cons_of_ne_nil hne
    rw [List.getLast?_append_of_ne_nil _ hne] at hlast
    have hgap : gapNode (c :: g') = .space :=
      if_neg (by simpa using fun hmem => hline (List.mem_append_left _ hmem))
    rw [ih (fun hmem => hline (List.mem_append_right _ hmem)) hlast, List.head?_cons,
      Option.any_some, if_neg (hr d rfl), wordsToInlines, wordsToInlines, words_blanks hg.2,
      List.cons_append, List.head?_cons, Option.any_some, if_pos (hg.2 c (List.mem_cons_self ..)),
      hgap]
    rfl

end ReadsAs

/-- A plain text reads as its words. -/
theorem readInlines_words {t : Text} (h : IsPlain t) :
    plainText (readInlines t) = collapse t ∧
      ('\n' ∉ t → (∀ c ∈ t.head?, ¬c.isBlank) → (∀ c ∈ t.getLast?, ¬c.isBlank) →
        readInlines t = wordsToInlines t) := by
  obtain ⟨nodes, hnodes⟩ := h.exists_readsAs
  rw [hnodes.readInlines_eq]
  refine ⟨hnodes.plainText_eq, fun hline hfirst hlast => ?_⟩
  rw [hnodes.eq_wordsToInlines hline hlast, if_neg (not_any_head hfirst), List.nil_append]

/-- Single marks are letters like any other, and every blank counts. -/
theorem readInlines_words_dashes :
    plainText (readInlines " a-b\n\n `c'\u00a0\t- d\r\n") = " a-b `c' - d " ∧
      readInlines "a-b \u2003`c'\t- d" =
        [.text "a-b", .space, .text "`c'", .space, .text "-", .space, .text "d"] := by
  have hlines := readInlines_words (t := " a-b\n\n `c'\u00a0\t- d\r\n") (by decide +kernel)
  have hline := readInlines_words (t := "a-b \u2003`c'\t- d") (by decide +kernel)
  have hwords : words "a-b \u2003`c'\t- d" = ["a-b", "`c'", "-", "d"] := by decide +kernel
  refine ⟨hlines.1.trans (by decide +kernel), (hline.2 (by decide +kernel) ?_ ?_).trans ?_⟩
  · simp [Char.isBlank]
  · simp [Char.isBlank]
  · rw [wordsToInlines, hwords]
    rfl

end Source
end TexCatalog
