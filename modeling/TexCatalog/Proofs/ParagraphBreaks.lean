import TexCatalog.Proofs.CommandTexts
import TexCatalog.Proofs.SpelledLines
import TexCatalog.Walk.Flatten

/-!
# Breaks between paragraphs

Where no line begins an environment or a section, a source is made of paragraphs. What stands in
front of a break is then read by itself: no comment, group or math of it goes on behind the break.
A text of one paragraph has the same inline content, read as blocks or as running text.
-/

namespace TexCatalog

namespace Source

open Text

def OpensNoBlock (s : Text) : Prop := ∀ line ∈ segments s, ¬startsBlock (trimStart line)

instance (s : Text) : Decidable (OpensNoBlock s) :=
  inferInstanceAs (Decidable (∀ line ∈ segments s, ¬startsBlock (trimStart line)))

/-! ### Lines -/

theorem mem_segments_tail {s line : Text} (h : line ∈ segments s) (x : Text) :
    line ∈ (segments (x ++ '\n' :: s)).tail := by
  induction x with
  | nil => rwa [List.nil_append, segments, if_pos rfl, List.tail_cons]
  | cons c x ih =>
    rw [List.cons_append, segments]
    by_cases hc : c = '\n'
    · rw [if_pos hc, List.tail_cons]
      exact List.mem_of_mem_tail ih
    · rw [if_neg hc]
      cases hlines : segments (x ++ '\n' :: s) with
      | nil =>
        rw [hlines] at ih
        cases ih
      | cons first more =>
        rw [hlines] at ih
        exact ih

theorem firstLine_mem {s : Text} (hne : s ≠ []) : firstLine s ∈ segments s := by
  have hlines : segments s ≠ [] := by
    intro hnil
    have hflat := flatten_segments s
    rw [hnil] at hflat
    exact hne hflat.symm
  obtain ⟨first, more, heq⟩ := List.exists_cons_of_ne_nil hlines
  rw [firstLine, heq]
  exact List.mem_cons_self ..

theorem firstLine_of_not_mem {s : Text} (h : '\n' ∉ s) : firstLine s = s := by
  have happend := firstLine_append h []
  rwa [List.append_nil, firstLine_nil, List.append_nil] at happend

theorem prefix_firstLine (s : Text) : firstLine s <+: s := by
  by_cases h : '\n' ∈ s
  · obtain ⟨x, y, rfl, hx⟩ := List.eq_append_cons_of_mem h
    rw [firstLine_append hx, firstLine_newline]
    exact ⟨y, List.append_assoc ..⟩
  · rw [firstLine_of_not_mem h]

/-- What a line begins with does not depend on what is behind a blank of it. -/
theorem startsBlock_append_cons {c : Char} (hc : c.isBlank) (x s : Text) :
    startsBlock (x ++ c :: s) = startsBlock x := by
  have hnot : ("\\begin" : Text).all (!·.isBlank) := by decide_cbv
  have hbegin : c ∉ ("\\begin" : Text) := by
    intro hmem
    have hc' := List.all_eq_true.1 hnot c hmem
    rw [hc] at hc'
    cases hc'
  have hback : c ≠ '\\' := by
    rintro rfl
    exact absurd hc (by decide)
  rw [startsBlock_eq, startsBlock_eq, commandName?_append_cons (not_isAlpha_of_isBlank hc) hback,
    isPrefixOf_append_cons hbegin]

theorem startsBlock_append {y : Text} (h : ∀ c ∈ y.head?, c.isBlank) (x : Text) :
    startsBlock (x ++ y) = startsBlock x := by
  cases y with
  | nil => rw [List.append_nil]
  | cons c y => exact startsBlock_append_cons (h c rfl) x y

theorem startsBlock_firstLine (s : Text) : startsBlock (firstLine s) = startsBlock s := by
  by_cases h : '\n' ∈ s
  · obtain ⟨x, y, rfl, hx⟩ := List.eq_append_cons_of_mem h
    rw [firstLine_append hx, firstLine_newline, startsBlock_append_cons (by decide),
      startsBlock_append_cons (by decide)]
  · rw [firstLine_of_not_mem h]

theorem endsParagraph_blanks {g : Text} (h : ∀ c ∈ g, c.isBlank) (x : Text) :
    endsParagraph (x ++ g) = endsParagraph x := by
  by_cases hx : ∀ c ∈ x, c.isBlank
  · have hblank : isBlank x = true := List.all_eq_true.2 hx
    have hall : isBlank (x ++ g) = true := by
      rw [isBlank, List.all_append, List.all_eq_true.2 h, Bool.and_true]
      exact hblank
    rw [endsParagraph, endsParagraph, hblank, hall, Bool.true_or, Bool.true_or]
  · have hall : isBlank (x ++ g) = isBlank x := by
      rw [isBlank, List.all_append, List.all_eq_true.2 h, Bool.and_true]
      rfl
    rw [endsParagraph, endsParagraph, hall, (trimStart_append hx g).1,
      startsBlock_append fun c hc => h c (List.mem_of_mem_head? hc)]

/-- A paragraph ends at the end of a line. -/
theorem takeParagraph_cut (s : Text) :
    (takeParagraph s).2 = [] ∨ ∃ x, s = x ++ '\n' :: (takeParagraph s).2 := by
  induction s with
  | nil => exact .inl rfl
  | cons c s ih =>
    by_cases hend : c = '\n' ∧ endsParagraph (firstLine s)
    · obtain ⟨rfl, hline⟩ := hend
      rw [takeParagraph_end (.inr ⟨s, rfl, hline⟩)]
      exact .inr ⟨[], rfl⟩
    · rw [takeParagraph_cons (not_and.1 hend)]
      obtain hnil | ⟨x, hx⟩ := ih
      · exact .inl hnil
      · exact .inr ⟨c :: x, congrArg (List.cons c) hx⟩

namespace OpensNoBlock

variable {s x : Text} {c : Char}

theorem nil : OpensNoBlock [] := fun _ h => by cases h

theorem newline (h : OpensNoBlock s) : OpensNoBlock ('\n' :: s) := by
  have hline : ¬startsBlock (trimStart ['\n']) := by decide_cbv
  unfold OpensNoBlock
  rw [segments, if_pos rfl]
  exact List.forall_mem_cons.2 ⟨hline, h⟩

theorem after (h : OpensNoBlock (x ++ '\n' :: s)) : OpensNoBlock s := fun line hline =>
  h line (List.mem_of_mem_tail (mem_segments_tail hline x))

theorem of_blank_cons (h : OpensNoBlock (c :: s)) (hc : c.isBlank) : OpensNoBlock s := by
  by_cases hbreak : c = '\n'
  · subst hbreak
    exact after (x := []) h
  · unfold OpensNoBlock at h ⊢
    rw [segments, if_neg hbreak] at h
    cases hlines : segments s with
    | nil => exact List.forall_mem_nil _
    | cons first more =>
      rw [hlines] at h
      obtain ⟨hfirst, hmore⟩ := List.forall_mem_cons.1 h
      have htrim : Text.trimStart (c :: first) = Text.trimStart first :=
        List.dropWhile_cons_of_pos hc
      rw [htrim] at hfirst
      exact List.forall_mem_cons.2 ⟨hfirst, hmore⟩

theorem trimStart (h : OpensNoBlock s) : OpensNoBlock (Text.trimStart s) := by
  induction s with
  | nil => exact h
  | cons c s ih =>
    by_cases hc : c.isBlank
    · rw [Text.trimStart, List.dropWhile_cons_of_pos hc]
      exact ih (h.of_blank_cons hc)
    · rwa [Text.trimStart, List.dropWhile_cons_of_neg hc]

/-- The end of a comment is the end of its line. -/
theorem dropLine (h : OpensNoBlock s) : OpensNoBlock (s.dropWhile (· ≠ '\n')) := by
  cases hrest : s.dropWhile (· ≠ '\n') with
  | nil => exact nil
  | cons c rest =>
    have hhead := List.head?_dropWhile_not (· ≠ '\n') s
    rw [hrest] at hhead
    have hc : c = '\n' := by simpa using hhead
    subst hc
    rw [← List.takeWhile_append_dropWhile (p := (· ≠ '\n')) (l := s), hrest] at h
    exact h.after.newline

theorem skipComments (h : OpensNoBlock s) : OpensNoBlock (skipComments s) := by
  fun_induction Source.skipComments s with
  | case1 => exact nil
  | case2 s rest hs ih =>
    have hstart := h.trimStart
    rw [hs] at hstart
    refine ih ?_
    have hdrop := hstart.dropLine
    rwa [List.dropWhile_cons_of_pos (by decide)] at hdrop
  | case3 s c rest hs =>
    rw [← hs]
    exact h.trimStart

theorem not_startsBlock (h : OpensNoBlock (c :: s)) (hc : ¬c.isBlank) : ¬startsBlock (c :: s) := by
  have hline := h _ (firstLine_mem (List.cons_ne_nil c s))
  have hbreak : c ≠ '\n' := by
    rintro rfl
    exact hc (by decide)
  rw [firstLine_cons hbreak, Text.trimStart, List.dropWhile_cons_of_neg hc,
    ← firstLine_cons hbreak, startsBlock_firstLine] at hline
  exact hline

theorem takeParagraph (h : OpensNoBlock s) : OpensNoBlock (takeParagraph s).2 := by
  obtain hnil | ⟨x, hx⟩ := takeParagraph_cut s
  · rw [hnil]
    exact nil
  · rw [hx] at h
    exact h.after

end OpensNoBlock

/-! ### Comments -/

theorem skipComments_nil : skipComments [] = [] := by
  rw [skipComments]
  rfl

theorem skipComments_percent (s : Text) :
    skipComments ('%' :: s) = skipComments (s.dropWhile (· ≠ '\n')) := by
  have hstart : trimStart ('%' :: s) = '%' :: s := List.dropWhile_cons_of_neg (by decide)
  rw [skipComments.eq_def]
  split
  · next hs =>
    rw [hstart] at hs
    cases hs
  · next hs =>
    rw [hstart] at hs
    cases hs
    rw [if_pos rfl]

theorem skipComments_append_of_trimStart {s rest : Text} {c : Char} (h : trimStart s = c :: rest)
    (r : Text) : skipComments (s ++ r) = skipComments (c :: (rest ++ r)) := by
  have hnot : ¬∀ d ∈ s, d.isBlank := by
    intro hall
    rw [trimStart, List.dropWhile_eq_nil_iff.2 hall] at h
    cases h
  rw [← skipComments_trimStart, (trimStart_append hnot r).1, h, List.cons_append]

theorem skipComments_eq_cons {s x : Text} {c : Char} (h : skipComments s = c :: x) :
    ¬c.isBlank ∧ c ≠ '%' := by
  fun_induction skipComments s with
  | case1 => cases h
  | case2 s rest hs ih => exact ih h
  | case3 s d rest hs hd =>
    cases h
    exact ⟨not_blank_of_trimStart hs, hd⟩

/-! ### The first piece -/

theorem readBlocks_congr {s t : Text} (h : skipComments s = skipComments t) :
    readBlocks s = readBlocks t := by
  have hnext : Piece.next? s = Piece.next? t := by
    rw [Piece.next?, Piece.next?, h]
  rw [readBlocks.eq_def s, readBlocks.eq_def t, hnext]

theorem readBlocks_of_skipComments {s x : Text} {c : Char} (hskip : skipComments s = c :: x)
    (h : ¬startsBlock (c :: x)) : readBlocks s =
      readParagraph (takeParagraph (c :: x)).1 :: readBlocks (takeParagraph (c :: x)).2 := by
  obtain ⟨hblank, hpercent⟩ := skipComments_eq_cons hskip
  have hsame : skipComments s = skipComments (c :: x) := by
    rw [hskip, skipComments_cons hblank hpercent]
  rw [readBlocks_congr hsame, readBlocks_cons hblank hpercent, Piece.first_of_not_startsBlock h]

theorem paragraph_rest_lt {s x : Text} {c : Char} (hskip : skipComments s = c :: x) :
    (takeParagraph (c :: x)).2.length < s.length := by
  have hne := List.length_pos_iff.2 (takeParagraph_ne_nil (List.cons_ne_nil c x))
  have hskipped := length_skipComments_le s
  have hsum := congrArg List.length (takeParagraph_eq (c :: x))
  rw [List.length_append] at hsum
  rw [hskip] at hskipped
  omega

theorem readParagraph_blanks {g : Text} (h : ∀ c ∈ g, c.isBlank) (t : Text) :
    readParagraph (t ++ g) = readParagraph t := by
  rw [readParagraph, readParagraph, trim_blanks h]

/-! ### Breaks -/

section

variable {gap r : Text} (hgap : ∀ c ∈ gap, c.isBlank ∧ c ≠ '\n') (hr : EndsBefore r)

include hgap hr

theorem break_blank : ∀ c ∈ gap ++ r.take 1, c.isBlank := by
  intro c hc
  rcases List.mem_append.1 hc with hmem | hmem
  · exact (hgap c hmem).1
  · rcases hr with rfl | ⟨s, rfl, _⟩
    · cases hmem
    · rw [List.take_succ_cons, List.take_zero, List.mem_singleton] at hmem
      subst hmem
      decide

theorem firstLine_break : firstLine (gap ++ r) = gap ++ r.take 1 := by
  rw [firstLine_append fun hmem => (hgap _ hmem).2 rfl]
  rcases hr with rfl | ⟨s, rfl, _⟩
  · rfl
  · rw [firstLine_newline]
    rfl

theorem break_head : ∀ c ∈ (gap ++ r).head?, c.isBlank := by
  intro c hc
  cases gap with
  | nil =>
    rcases hr with rfl | ⟨s, rfl, _⟩
    · cases hc
    · cases hc
      decide
  | cons d gap =>
    cases hc
    exact (hgap c (List.mem_cons_self ..)).1

/-- A break does not decide about the lines in front of it. -/
theorem endsParagraph_firstLine_append (x : Text) :
    endsParagraph (firstLine (x ++ (gap ++ r))) = endsParagraph (firstLine x) := by
  by_cases hx : '\n' ∈ x
  · rw [firstLine_append_of_mem hx]
  · rw [firstLine_append hx, firstLine_break hgap hr, firstLine_of_not_mem hx,
      endsParagraph_blanks (break_blank hgap hr)]

/-- A break ends the last paragraph, and it leaves those in front of it as they are. -/
theorem takeParagraph_append (x : Text) :
    ((takeParagraph x).2 = [] ∧
        takeParagraph (x ++ (gap ++ r)) = (x ++ (gap ++ r.take 1), r.drop 1)) ∨
      takeParagraph (x ++ (gap ++ r)) =
        ((takeParagraph x).1, (takeParagraph x).2 ++ (gap ++ r)) := by
  induction x with
  | nil =>
    have hflows : Flows gap r := flows_of_not_mem (fun hmem => (hgap _ hmem).2 rfl) r
    exact .inl ⟨rfl, takeParagraph_flows hflows hr⟩
  | cons c x ih =>
    have hnext := endsParagraph_firstLine_append hgap hr x
    by_cases hend : c = '\n' ∧ endsParagraph (firstLine x)
    · obtain ⟨rfl, hline⟩ := hend
      have hshort := takeParagraph_end (.inr ⟨x, rfl, hline⟩)
      have hlong := takeParagraph_end (.inr ⟨x ++ (gap ++ r), rfl, by rwa [hnext]⟩)
      rw [List.cons_append, hlong, hshort]
      exact .inr rfl
    · have hflows := not_and.1 hend
      rw [List.cons_append, takeParagraph_cons hflows, takeParagraph_cons (by rwa [hnext])]
      rcases ih with ⟨hrest, htaken⟩ | htaken
      · rw [htaken]
        exact .inl ⟨hrest, rfl⟩
      · rw [htaken]
        exact .inr rfl

/-- A comment in front of a break ends with its line. -/
theorem dropLine_append (x : Text) :
    (x.dropWhile (· ≠ '\n') = [] ∧ (x ++ (gap ++ r)).dropWhile (· ≠ '\n') = r) ∨
      (x ++ (gap ++ r)).dropWhile (· ≠ '\n') = x.dropWhile (· ≠ '\n') ++ (gap ++ r) := by
  rw [List.dropWhile_append]
  split
  · next hempty =>
    have hgap' : ∀ c ∈ gap, decide (c ≠ '\n') = true := fun c hc => decide_eq_true (hgap c hc).2
    rw [List.dropWhile_append_of_pos hgap']
    rcases hr with rfl | ⟨s, rfl, _⟩
    · exact .inl ⟨List.isEmpty_iff.1 hempty, rfl⟩
    · exact .inl ⟨List.isEmpty_iff.1 hempty, List.dropWhile_cons_of_neg (by decide)⟩
  · exact .inr rfl

theorem skipComments_append (s : Text) :
    (skipComments s = [] ∧ skipComments (s ++ (gap ++ r)) = skipComments r) ∨
      skipComments s ≠ [] ∧ skipComments (s ++ (gap ++ r)) = skipComments s ++ (gap ++ r) := by
  fun_induction skipComments s with
  | case1 s hs =>
    have hblank : ∀ c ∈ s, c.isBlank := List.dropWhile_eq_nil_iff.1 hs
    rw [skipComments_blanks hblank, skipComments_blanks fun c hc => (hgap c hc).1]
    exact .inl ⟨rfl, rfl⟩
  | case2 s rest hs ih =>
    rw [skipComments_append_of_trimStart hs, skipComments_percent]
    obtain ⟨hnil, hdrop⟩ | hdrop := dropLine_append hgap hr rest
    · rw [hdrop, hnil, skipComments_nil]
      exact .inl ⟨rfl, rfl⟩
    · rw [hdrop]
      exact ih
  | case3 s c rest hs hc =>
    rw [skipComments_append_of_trimStart hs,
      skipComments_cons (not_blank_of_trimStart hs) hc]
    exact .inr ⟨List.cons_ne_nil c rest, rfl⟩

/-- What stands in front of a break is read by itself. -/
theorem readBlocks_break {s : Text} (h : OpensNoBlock s) :
    readBlocks (s ++ (gap ++ r)) = readBlocks s ++ readBlocks r := by
  induction hlength : s.length using Nat.strong_induction_on generalizing s with
  | _ n ih =>
    obtain ⟨hnil, hskip⟩ | ⟨hne, hskip⟩ := skipComments_append hgap hr s
    · rw [← skipComments_nil] at hnil
      rw [readBlocks_congr hskip, readBlocks_congr hnil, readBlocks_nil, List.nil_append]
    · obtain ⟨c, x, hx⟩ := List.exists_cons_of_ne_nil hne
      have hopens := h.skipComments
      rw [hx] at hopens hskip
      rw [List.cons_append] at hskip
      have hfirst := hopens.not_startsBlock (skipComments_eq_cons hx).1
      have hlong : ¬startsBlock (c :: (x ++ (gap ++ r))) := by
        rwa [← List.cons_append, startsBlock_append (break_head hgap hr)]
      rw [readBlocks_of_skipComments hx hfirst, readBlocks_of_skipComments hskip hlong]
      obtain ⟨hrest, hlast⟩ | hmore := takeParagraph_append hgap hr (c :: x)
      · have htaken := takeParagraph_eq (c :: x)
        rw [hrest, List.append_nil] at htaken
        have hbehind : readBlocks (r.drop 1) = readBlocks r := by
          rcases hr with rfl | ⟨t, rfl, _⟩
          · rfl
          · exact (readBlocks_newline t).symm
        rw [← List.cons_append, hlast, hrest, htaken, hbehind, readBlocks_nil,
          readParagraph_blanks (break_blank hgap hr)]
        rfl
      · have hshort := hlength ▸ paragraph_rest_lt hx
        rw [← List.cons_append, hmore, ih _ hshort hopens.takeParagraph rfl, List.cons_append]

end

/-- What stands in front of a blank line and what stands behind it are read apart. -/
theorem readBlocks_blank_line {a : Text} (h : OpensNoBlock a) (b : Text) :
    readBlocks (a ++ '\n' :: '\n' :: b) = readBlocks a ++ readBlocks b := by
  have hgap : ∀ c ∈ ([] : Text), c.isBlank ∧ c ≠ '\n' := fun _ hc => by cases hc
  have hline : endsParagraph (firstLine ('\n' :: b)) := by
    rw [firstLine_newline]
    decide
  have hread := readBlocks_break hgap (.inr ⟨_, rfl, hline⟩) h
  rwa [List.nil_append, readBlocks_newline, readBlocks_newline] at hread

/-- Comments, groups and math that are not closed end with their paragraph. -/
theorem readBlocks_blank_line_unclosed :
    OpensNoBlock "\\alone[x\n% \x7b\n\n  $a \\emph\x7bb" ∧
      readBlocks ("\\alone[x\n% \x7b\n\n  $a \\emph\x7bb" ++
          '\n' :: '\n' :: "\x7d $\n\\begin\x7bverbatim\x7dc\\end\x7bverbatim\x7d") =
        readBlocks "\\alone[x\n% \x7b\n\n  $a \\emph\x7bb" ++
          readBlocks "\x7d $\n\\begin\x7bverbatim\x7dc\\end\x7bverbatim\x7d" := by
  have hopens : OpensNoBlock "\\alone[x\n% \x7b\n\n  $a \\emph\x7bb" := by decide +kernel
  exact ⟨hopens, readBlocks_blank_line hopens _⟩

/-- Blanks behind a text are a break. -/
theorem exists_break {blanks : Text} (h : ∀ c ∈ blanks, c.isBlank) :
    ∃ gap r, (∀ c ∈ gap, c.isBlank ∧ c ≠ '\n') ∧ EndsBefore r ∧ blanks = gap ++ r := by
  by_cases hbreak : '\n' ∈ blanks
  · obtain ⟨gap, s, rfl, hgap⟩ := List.eq_append_cons_of_mem hbreak
    have hline : ∀ c ∈ firstLine s, c.isBlank := fun c hc =>
      h c (List.mem_append_right gap (List.mem_cons_of_mem _ ((prefix_firstLine s).subset hc)))
    have hends : endsParagraph (firstLine s) := by
      rw [endsParagraph, isBlank, List.all_eq_true.2 hline, Bool.true_or]
    refine ⟨gap, '\n' :: s, fun c hc => ⟨h c (List.mem_append_left _ hc), ?_⟩,
      .inr ⟨s, rfl, hends⟩, rfl⟩
    rintro rfl
    exact hgap hc
  · refine ⟨blanks, [], fun c hc => ⟨h c hc, ?_⟩, .inl rfl, (List.append_nil _).symm⟩
    rintro rfl
    exact hbreak hc

/-- Blanks around a text are not read. -/
theorem readBlocks_trim {s : Text} (h : OpensNoBlock (trim s)) :
    readBlocks s = readBlocks (trim s) := by
  obtain ⟨blanks, hblanks, hstart⟩ := exists_trim_append s
  obtain ⟨gap, r, hgap, hr, rfl⟩ := exists_break hblanks
  have hrest : readBlocks r = [] := by
    have hblank : ∀ c ∈ r, c.isBlank := fun c hc => hblanks c (List.mem_append_right gap hc)
    rw [← List.append_nil r, readBlocks_blanks hblank, readBlocks_nil]
  rw [← readBlocks_congr (skipComments_trimStart s), hstart, readBlocks_break hgap hr h, hrest,
    List.append_nil]

/-! ### A single paragraph -/

theorem takeParagraph_of_lines {s : Text} (h : ∀ line ∈ segments s, ¬endsParagraph line) :
    takeParagraph s = (s, []) := by
  have hflat := flatten_segments s
  unfold takeParagraph
  cases hlines : segments s with
  | nil =>
    rw [hlines] at hflat
    rw [← hflat]
    rfl
  | cons line more =>
    rw [hlines] at h hflat
    have hmore : ∀ l ∈ more, (!endsParagraph l) = true := fun l hl => by
      simpa using h l (List.mem_cons_of_mem line hl)
    dsimp only
    rw [List.takeWhile_eq_self_iff.2 hmore, List.dropWhile_eq_nil_iff.2 hmore,
      ← List.flatten_cons, hflat]
    rfl

theorem commandName?_of_rawCommand {s : Text} {p : Text × Text} (h : rawCommand? s = some p) :
    ∃ name rest, commandName? s = some (name, rest) := by
  cases hname : commandName? s with
  | none =>
    rw [rawCommand?, hname] at h
    cases h
  | some q => exact ⟨q.1, q.2, rfl⟩

/-- A single command that running text has no node for is a raw node in running text. -/
theorem readInlines_rawCommand {t name rest : Text} (hstarts : ¬startsBlock t)
    (hname : commandName? t = some (name, rest)) (hnative : name ∉ nativeCommands)
    (hraw : rawCommand? t = some (t, [])) : readInlines t = [.raw .tex t] := by
  have hbegin : name ≠ "begin" := by
    rintro rfl
    have hletters : ("\\begin" : Text) = '\\' :: ("begin" : Text) := by simp
    have hprefix : ("\\begin" : Text) <+: t := by
      rw [commandName?_eq hname, hletters]
      exact List.prefix_append _ _
    rw [startsBlock, List.isPrefixOf_iff_prefix.2 hprefix, Bool.true_or] at hstarts
    exact hstarts rfl
  rw [readInlines, fragments_nodes (next?_rawCommand hname hbegin hnative hraw), fragments_nil]
  rfl

/-- The last character of a trimmed text is no blank, so a command that is all of it but blanks is
all of it. -/
theorem rawCommand?_whole {t raw rest : Text} (htrim : trim t = t)
    (hraw : rawCommand? t = some (raw, rest)) (hblank : isBlank rest) : raw = t ∧ rest = [] := by
  have hsplit := rawCommand?_eq hraw
  rw [hsplit, trim_blanks (List.all_eq_true.1 hblank)] at htrim
  have hlength := (trim_piece raw).length_le
  rw [htrim, List.length_append] at hlength
  obtain rfl : rest = [] := List.length_eq_zero_iff.1 (by omega)
  exact ⟨by rw [hsplit, List.append_nil], rfl⟩

/-- A raw block and running text that is one raw node have the same content. -/
theorem flattenBlock_readParagraph {t : Text} (htrim : trim t = t) (hstarts : ¬startsBlock t) :
    flattenBlock [] (readParagraph t) = readInlines t := by
  rw [readParagraph, htrim]
  dsimp only
  cases hraw : rawCommand? t with
  | none => rfl
  | some p =>
    obtain ⟨raw, rest⟩ := p
    obtain ⟨name, after, hname⟩ := commandName?_of_rawCommand hraw
    dsimp only
    by_cases hblank : isBlank rest
    · obtain ⟨rfl, rfl⟩ := rawCommand?_whole htrim hraw hblank
      by_cases hnative : name ∈ nativeCommands
      · simp only [hname, List.contains_iff_mem.2 hnative, Bool.not_true, Bool.and_false,
          Bool.false_eq_true, if_false]
        rfl
      · rw [readInlines_rawCommand hstarts hname hnative hraw]
        simp only [hname, List.contains_eq_mem, hnative, hblank, decide_false, Bool.not_false,
          Bool.and_self, if_true]
        rfl
    · simp only [hblank, Bool.false_and, Bool.false_eq_true, if_false]
      rfl

/-- A text of one paragraph is read as running text, by way of blocks or directly. -/
theorem flatten_readBlocks {s : Text} (hne : trim s ≠ []) (hpercent : (trim s).head? ≠ some '%')
    (hblank : ∀ line ∈ segments (trim s), ¬isBlank line) (hopens : OpensNoBlock (trim s)) :
    flatten (readBlocks s) = readInlines (trim s) := by
  obtain ⟨c, t, ht⟩ := List.exists_cons_of_ne_nil hne
  have hc : ¬c.isBlank := by
    have hstart := trimStart_of_trim (trim_trim s)
    rw [ht] at hstart
    exact not_blank_of_trimStart hstart
  have hskip : skipComments (trim s) = c :: t := by
    rw [ht] at hpercent ⊢
    exact skipComments_cons hc (fun heq => hpercent (congrArg some heq)) t
  have hstarts : ¬startsBlock (trim s) := by
    rw [ht] at hopens ⊢
    exact hopens.not_startsBlock hc
  have htaken : takeParagraph (trim s) = (trim s, []) := by
    refine takeParagraph_of_lines fun line hline => ?_
    rw [endsParagraph, Bool.or_eq_true, not_or]
    exact ⟨hblank line hline, hopens line hline⟩
  have hread : readBlocks (trim s) = [readParagraph (trim s)] := by
    rw [readBlocks_of_skipComments hskip (ht ▸ hstarts), ← ht, htaken, readBlocks_nil]
  rw [readBlocks_trim hopens, hread]
  exact flattenBlock_readParagraph (trim_trim s) hstarts

theorem flatten_readBlocks_lone :
    flatten (readBlocks " \n\\alone*[a]\x7bb\x7d \n\n") =
      readInlines "\\alone*[a]\x7bb\x7d" := by
  have htrim : Text.trim " \n\\alone*[a]\x7bb\x7d \n\n" = "\\alone*[a]\x7bb\x7d" := by
    decide +kernel
  have hblank : ∀ line ∈ segments "\\alone*[a]\x7bb\x7d", ¬isBlank line := by decide +kernel
  have hopens : OpensNoBlock "\\alone*[a]\x7bb\x7d" := by decide +kernel
  rw [← htrim] at hblank hopens ⊢
  have hne : Text.trim " \n\\alone*[a]\x7bb\x7d \n\n" ≠ [] := by decide +kernel
  have hpercent : (Text.trim " \n\\alone*[a]\x7bb\x7d \n\n").head? ≠ some '%' := by
    decide +kernel
  exact flatten_readBlocks hne hpercent hblank hopens

end Source

end TexCatalog
