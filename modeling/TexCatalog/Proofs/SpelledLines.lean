import TexCatalog.Proofs.SpelledMacros
import TexCatalog.Proofs.TrimmedText

/-!
# Paragraphs and headings from their spelling

A paragraph goes on as long as its lines do not end it. In the spelling of running text a line ends
with a soft break or within text that is not looked into. Behind a soft break stands a node, and no
node begins like an environment or a section.
-/

namespace TexCatalog

namespace Source

open Text

def firstLine (s : Text) : Text := (segments s).headD []

@[simp] theorem firstLine_nil : firstLine [] = [] := rfl

theorem firstLine_newline (s : Text) : firstLine ('\n' :: s) = ['\n'] := by
  simp [firstLine, segments]

theorem firstLine_cons {c : Char} (hc : c ≠ '\n') (s : Text) :
    firstLine (c :: s) = c :: firstLine s := by
  unfold firstLine
  rw [segments, if_neg hc]
  cases segments s <;> rfl

theorem firstLine_append {t : Text} (h : '\n' ∉ t) (s : Text) :
    firstLine (t ++ s) = t ++ firstLine s := by
  induction t with
  | nil => rfl
  | cons c t ih =>
    rw [List.mem_cons, not_or] at h
    rw [List.cons_append, firstLine_cons (Ne.symm h.1), ih h.2, List.cons_append]

theorem firstLine_append_of_mem {t : Text} (h : '\n' ∈ t) (s : Text) :
    firstLine (t ++ s) = firstLine t := by
  induction t with
  | nil => cases h
  | cons c t ih =>
    by_cases hc : c = '\n'
    · rw [hc, List.cons_append, firstLine_newline, firstLine_newline]
    · have hmem := (List.mem_cons.1 h).resolve_left (Ne.symm hc)
      rw [List.cons_append, firstLine_cons hc, firstLine_cons hc, ih hmem]

/-! ### Lines inside of a paragraph -/

/-- No line that begins within `x` ends a paragraph, if `r` follows. -/
def Flows : Text → Text → Prop
  | [], _ => True
  | c :: x, r => (c = '\n' → ¬endsParagraph (firstLine (x ++ r))) ∧ Flows x r

theorem flows_append {x y r : Text} : Flows (x ++ y) r ↔ Flows x (y ++ r) ∧ Flows y r := by
  induction x with
  | nil => simp [Flows]
  | cons c x ih => simp [Flows, ih, and_assoc]

theorem flows_of_not_mem {x : Text} (h : '\n' ∉ x) (r : Text) : Flows x r := by
  induction x with
  | nil => trivial
  | cons c x ih =>
    rw [List.mem_cons, not_or] at h
    exact ⟨fun hc => absurd hc.symm h.1, ih h.2⟩

theorem takeParagraph_cons {c : Char} {s : Text}
    (h : c = '\n' → ¬endsParagraph (firstLine s)) :
    takeParagraph (c :: s) = onto [c] (takeParagraph s) := by
  unfold takeParagraph
  rw [segments]
  unfold firstLine at h
  by_cases hc : c = '\n'
  · rw [if_pos hc]
    cases hlines : segments s with
    | nil =>
      rw [hlines] at h
      exact absurd rfl (h hc)
    | cons line more =>
      rw [hlines] at h
      have hline : endsParagraph line = false := by simpa using h hc
      simp [hline, onto]
  · rw [if_neg hc]
    cases segments s <;> simp [onto]

/-- What a paragraph can have behind it: nothing, or the end of its last line and a line that ends
it. -/
def EndsBefore (r : Text) : Prop := r = [] ∨ ∃ s, r = '\n' :: s ∧ endsParagraph (firstLine s)

theorem takeParagraph_end {r : Text} (h : EndsBefore r) :
    takeParagraph r = (r.take 1, r.drop 1) := by
  rcases h with rfl | ⟨s, rfl, hs⟩
  · rfl
  · have hrest := flatten_segments s
    unfold firstLine at hs
    unfold takeParagraph
    rw [segments, if_pos rfl]
    cases hlines : segments s with
    | nil =>
      rw [hlines] at hrest
      simpa using hrest
    | cons line more =>
      rw [hlines] at hs hrest
      have hline : endsParagraph line = true := hs
      simpa [hline] using hrest

theorem takeParagraph_flows {x r : Text} (h : Flows x r) (hr : EndsBefore r) :
    takeParagraph (x ++ r) = (x ++ r.take 1, r.drop 1) := by
  induction x with
  | nil => exact takeParagraph_end hr
  | cons c x ih =>
    rw [List.cons_append, takeParagraph_cons h.1, ih h.2]
    rfl

/-! ### Lines of text that is not looked into -/

theorem flows_of_lines {x r : Text} (h : ∀ line ∈ (segments (x ++ r)).tail, ¬endsParagraph line)
    (hr : r ≠ []) : Flows x r := by
  induction x with
  | nil => trivial
  | cons c x ih =>
    rw [List.cons_append, segments] at h
    have hne : segments (x ++ r) ≠ [] := by
      intro hnil
      have hflat := flatten_segments (x ++ r)
      rw [hnil] at hflat
      exact hr (List.append_eq_nil_iff.1 hflat.symm).2
    obtain ⟨line, more, hlines⟩ := List.exists_cons_of_ne_nil hne
    rw [hlines] at h ih
    by_cases hc : c = '\n'
    · rw [if_pos hc] at h
      refine ⟨fun _ => ?_, ih fun l hl => h l (List.mem_cons_of_mem line hl)⟩
      unfold firstLine
      rw [hlines]
      exact h line (List.mem_cons_self ..)
    · rw [if_neg hc] at h
      exact ⟨fun heq => absurd heq hc, ih h⟩

/-- The name of a command ends in front of what is no letter. -/
theorem commandName?_append_cons {c : Char} (hc : ¬c.isAlpha) (hback : c ≠ '\\') (t s : Text) :
    (commandName? (t ++ c :: s)).map Prod.fst = (commandName? t).map Prod.fst := by
  cases t with
  | nil => simp [commandName?, hback]
  | cons d t =>
    have htake : (t ++ c :: s).takeWhile Char.isAlpha = t.takeWhile Char.isAlpha := by
      rw [List.takeWhile_append]
      split
      · next h =>
        rw [List.takeWhile_cons_of_neg hc, List.append_nil]
        exact ((List.takeWhile_prefix _).eq_of_length h).symm
      · rfl
    rw [List.cons_append, commandName?, commandName?, htake]
    dsimp only
    split
    · split <;> rfl
    · rfl

theorem startsBlock_eq (line : Text) : startsBlock line =
    (("\\begin" : Text).isPrefixOf line ||
      ((commandName? line).map Prod.fst).any fun name => (sectionLevel? name).isSome) := by
  unfold startsBlock
  cases commandName? line <;> rfl

/-- Where no environment and no section begins, a paragraph begins. -/
theorem Piece.first_of_not_startsBlock {s : Text} (h : ¬startsBlock s) :
    Piece.first s = (.paragraph (takeParagraph s).1, (takeParagraph s).2) := by
  rw [startsBlock, Bool.or_eq_true, not_or] at h
  obtain ⟨hbegin, hname⟩ := h
  have henvironment : environment? s = none := by
    rw [List.isPrefixOf_iff_prefix, ← isPrefixOf?_eq_none] at hbegin
    exact environment?_eq_none hbegin
  have hheading : heading? s = none := by
    unfold heading?
    cases hcommand : commandName? s with
    | none => rfl
    | some p =>
      rw [hcommand] at hname
      have hlevel : sectionLevel? p.1 = none := by simpa using hname
      simp only [hlevel]
  rw [Piece.first, henvironment, hheading]

/-- What is no letter and no blank decides whether its line ends a paragraph. -/
theorem endsParagraph_append_cons {c : Char} (hc : c ∈ [('$' : Char), '}']) (t s : Text) :
    endsParagraph (t ++ c :: s) = endsParagraph (t ++ [c]) := by
  have hchar : ¬c.isBlank ∧ ¬c.isAlpha ∧ c ≠ '\\' ∧ c ∉ ("\\begin" : Text) := by
    simp only [List.mem_cons, List.not_mem_nil, or_false] at hc
    rcases hc with rfl | rfl <;> exact ⟨by decide, by decide, by decide, by simp⟩
  obtain ⟨hblank, halpha, hback, hbegin⟩ := hchar
  have hnot (s : Text) : isBlank (t ++ c :: s) = false := by
    simp [isBlank, hblank]
  have hstarts (s : Text) : startsBlock (trimStart t ++ c :: s) = startsBlock (trimStart t) := by
    rw [startsBlock_eq, startsBlock_eq, commandName?_append_cons halpha hback,
      isPrefixOf_append_cons hbegin]
  unfold endsParagraph
  rw [hnot, hnot, trimStart_append_cons hblank, trimStart_append_cons hblank, hstarts, hstarts]

/-- Text that is not looked into stays within its paragraph, whatever follows. -/
theorem flows_extend {x : Text} {c : Char} (hc : c ∈ [('$' : Char), '}']) (h : Flows x [c])
    (r : Text) : Flows x (c :: r) := by
  have hbreak : c ≠ '\n' := by
    rintro rfl
    exact absurd hc (by decide)
  induction x with
  | nil => trivial
  | cons d x ih =>
    refine ⟨fun hd => ?_, ih h.2⟩
    have hline := h.1 hd
    by_cases hmem : '\n' ∈ x
    · rw [firstLine_append_of_mem hmem] at hline ⊢
      exact hline
    · rw [firstLine_append hmem, firstLine_cons hbreak] at hline ⊢
      rw [endsParagraph_append_cons hc]
      exact hline

theorem Place.Admits.flows {p : Place} {c : Char} {t : Text} (h : p.Admits c t) (hp : p.byLine)
    (hc : c ∈ [('$' : Char), '}']) (r : Text) : Flows t (c :: r) :=
  flows_extend hc (flows_of_lines (h.lines hp) (List.cons_ne_nil c [])) r

/-! ### How spelled nodes begin -/

inductive Opens : Text → Prop
  | char {c : Char} (s : Text) : ¬c.isBlank → c ∉ ("\\%" : Text) → Opens (c :: s)
  | lineBreak (s : Text) : Opens ('\\' :: '\\' :: s)
  | command {name : Text} (s : Text) : name ∈ inlineCommands → Opens ('\\' :: (name ++ '{' :: s))

/-- The commands that stand in front of blocks and labels are none of those in running text. -/
theorem inlineCommands_spec {name : Text} (h : name ∈ inlineCommands) :
    '\n' ∉ name ∧ sectionLevel? name = none ∧ nativeCommands.contains name ∧
      ∀ mark ∈ [("\\begin" : Text), "\\label"], mark.isPrefixOf? ('\\' :: name) = none := by
  revert name
  decide +kernel

namespace Opens

variable {s : Text} (h : Opens s)

include h

theorem exists_cons : ∃ c more, s = c :: more ∧ ¬c.isBlank ∧ c ≠ '%' := by
  cases h with
  | char s hblank hmark =>
    refine ⟨_, _, rfl, hblank, ?_⟩
    rintro rfl
    simp at hmark
  | lineBreak | command => exact ⟨_, _, rfl, by decide, by decide⟩

theorem isPrefixOf?_eq_none {mark : Text} (hmark : mark ∈ [("\\begin" : Text), "\\label"]) :
    mark.isPrefixOf? s = none := by
  have hform : ∃ c d more, mark = '\\' :: c :: d :: more ∧ c ≠ '\\' ∧ '{' ∉ mark := by
    simp only [List.mem_cons, List.not_mem_nil, or_false] at hmark
    rcases hmark with rfl | rfl <;> simp
  obtain ⟨d, e, more, hcons, hd, hbrace⟩ := hform
  cases h with
  | @char c s _ hplain =>
    have hback : c ≠ '\\' := fun heq => hplain (by rw [heq]; simp)
    rw [isPrefixOf?_eq_none, hcons, List.cons_prefix_cons]
    exact fun hprefix => hback hprefix.1.symm
  | lineBreak s =>
    rw [isPrefixOf?_eq_none, hcons, List.cons_prefix_cons, List.cons_prefix_cons]
    exact fun hprefix => hd hprefix.2.1
  | command s hname =>
    have hnone := (inlineCommands_spec hname).2.2.2 mark hmark
    rw [← List.cons_append, isPrefixOf?_append_cons hbrace, hnone]
    rfl

theorem command_or_none : commandName? s = none ∨
    ∃ name more, name ∈ inlineCommands ∧ s = '\\' :: (name ++ '{' :: more) := by
  cases h with
  | @char c s _ hplain =>
    have hback : c ≠ '\\' := fun heq => hplain (by rw [heq]; simp)
    exact .inl (if_neg hback)
  | lineBreak s =>
    have hletter : ¬Char.isAlpha '\\' := by decide
    left
    rw [commandName?, if_pos rfl]
    simp [List.takeWhile_cons_of_neg hletter]
  | command s hmem => exact .inr ⟨_, s, hmem, rfl⟩

theorem commandName?_inline {name rest : Text} (hname : commandName? s = some (name, rest)) :
    name ∈ inlineCommands := by
  rcases h.command_or_none with hnone | ⟨name', more, hmem, rfl⟩
  · rw [hnone] at hname
    cases hname
  · obtain ⟨hne, hletters, _⟩ := inlineCommands_letters hmem
    rw [commandName?_cons hne hletters] at hname
    obtain ⟨rfl, _⟩ := Prod.mk.inj (Option.some.inj hname)
    exact hmem

theorem not_startsBlock : startsBlock s = false := by
  have hbegin : ("\\begin" : Text).isPrefixOf s = false := by
    rw [Bool.eq_false_iff, ne_eq, List.isPrefixOf_iff_prefix, ← Text.isPrefixOf?_eq_none]
    exact h.isPrefixOf?_eq_none (by simp)
  rw [startsBlock, hbegin, Bool.false_or]
  cases hname : commandName? s with
  | none => rfl
  | some p =>
    have hlevel := (inlineCommands_spec (h.commandName?_inline hname)).2.1
    dsimp only
    rw [hlevel]
    rfl

theorem trimStart_eq : trimStart s = s := by
  obtain ⟨c, more, rfl, hblank, _⟩ := h.exists_cons
  exact List.dropWhile_cons_of_neg hblank

theorem not_endsParagraph : endsParagraph s = false := by
  have hblank : isBlank s = false := by
    obtain ⟨c, more, rfl, hblank, _⟩ := h.exists_cons
    simp [isBlank, hblank]
  rw [endsParagraph, hblank, h.trimStart_eq, h.not_startsBlock]
  rfl

theorem firstLine : Opens (firstLine s) := by
  cases h with
  | @char c s hblank hplain =>
    have hbreak : c ≠ '\n' := fun heq => hblank (by rw [heq]; decide)
    rw [firstLine_cons hbreak]
    exact .char _ hblank hplain
  | lineBreak s =>
    rw [firstLine_cons (by decide), firstLine_cons (by decide)]
    exact .lineBreak _
  | command s hname =>
    have hline := firstLine_append (inlineCommands_spec hname).1 ('{' :: s)
    rw [firstLine_cons (by decide), hline, firstLine_cons (by decide)]
    exact .command _ hname

end Opens

section

variable {p : Place} {node : Inline} {more nodes : List Inline}

theorem CanonicalInlines.opens (h : CanonicalInlines p (node :: more)) (hgap : ¬IsGap node)
    (r : Text) : Opens (spellInlines (node :: more) ++ r) := by
  rw [spellInlines, List.append_assoc]
  cases h with
  | leaf hleaf =>
    cases hleaf with
    | word hword =>
      rw [spellInline]
      obtain ⟨c, t, rfl⟩ := List.exists_cons_of_ne_nil hword.1
      obtain ⟨hblank, hmark⟩ := hword.2.1 c (List.mem_cons_self ..)
      refine .char _ hblank fun hmem => hmark ?_
      revert hmem
      simp only [ofString_eq, String.reduceToList, List.mem_cons, List.not_mem_nil, or_false]
      rintro (rfl | rfl) <;> simp
    | space | softBreak => exact absurd trivial hgap
    | lineBreak =>
      rw [spellInline]
      exact .lineBreak _
    | math =>
      rw [spellInline]
      exact .char _ (by decide) (by simp)
    | code =>
      rw [spellInline, spellCommand, List.cons_append, List.append_assoc]
      exact .command _ (by simp [inlineCommands])
  | styled style =>
    rw [spellInline, spellCommand, List.cons_append, List.append_assoc]
    exact .command _ (styleCommand_mem style)
  | link =>
    rw [spellInline, spellCommand, List.cons_append, List.cons_append, List.append_assoc,
      List.append_assoc]
    exact .command _ (by simp [inlineCommands])

theorem spellCommand_last {name argument : Text} :
    ∀ c ∈ (spellCommand name argument).getLast?, ¬c.isBlank := by
  have hcommand : spellCommand name argument = '\\' :: (name ++ '{' :: argument) ++ ['}'] := by
    simp [spellCommand]
  rw [hcommand, List.getLast?_concat]
  rintro _ ⟨rfl⟩
  decide

theorem flows_command {name argument : Text} (hname : name ∈ inlineCommands) {r : Text}
    (hargument : Flows argument ('}' :: r)) : Flows (spellCommand name argument) r := by
  have hfront : '\n' ∉ '\\' :: (name ++ ['{']) := by
    have hletters := (inlineCommands_spec hname).1
    simpa using hletters
  have hcommand : spellCommand name argument = '\\' :: (name ++ ['{']) ++ (argument ++ ['}']) := by
    simp [spellCommand]
  rw [hcommand, flows_append, flows_append]
  exact ⟨flows_of_not_mem hfront _, hargument, flows_of_not_mem (by simp) _⟩

theorem not_endsParagraph_brace (r : Text) : ¬endsParagraph (firstLine ('}' :: r)) := by
  rw [(Opens.char r (by decide) (by simp)).firstLine.not_endsParagraph]
  exact Bool.false_ne_true

theorem Place.Leaf.flows (h : p.Leaf node) (hp : p.byLine) {r : Text}
    (hr : IsGap node → ¬endsParagraph (firstLine r)) : Flows (spellInline node) r := by
  cases h with
  | word hword =>
    rw [spellInline]
    exact flows_of_not_mem (fun hmem => (hword.2.1 _ hmem).1 (by decide)) r
  | space | lineBreak =>
    rw [spellInline]
    exact flows_of_not_mem (by simp) r
  | softBreak =>
    rw [spellInline]
    exact ⟨fun _ => hr trivial, trivial⟩
  | math _ _ _ hadmits =>
    rw [spellInline, ← List.singleton_append, flows_append, flows_append]
    exact ⟨flows_of_not_mem (by simp) _, hadmits.flows hp (by simp) _, flows_of_not_mem (by simp) _⟩
  | code _ hadmits =>
    rw [spellInline]
    exact flows_command (by simp [inlineCommands]) (hadmits.flows hp (by simp) _)

/-- A soft break at the end is the only thing that lets what follows end the paragraph. -/
theorem CanonicalInlines.flows (h : CanonicalInlines p nodes) (hp : p.byLine) {r : Text}
    (hr : (∀ last ∈ nodes.getLast?, ¬IsGap last) ∨ ¬endsParagraph (firstLine r)) :
    Flows (spellInlines nodes) r := by
  have hbehind {node : Inline} {more : List Inline} {p : Place} {r : Text}
      (hmore : CanonicalInlines p more) (hmeets : p.Meets node more)
      (hr : (∀ last ∈ (node :: more).getLast?, ¬IsGap last) ∨ ¬endsParagraph (firstLine r))
      (hgap : IsGap node) : ¬endsParagraph (firstLine (spellInlines more ++ r)) := by
    cases more with
    | nil =>
      rw [spellInlines]
      exact hr.resolve_left fun hlast => hlast node rfl hgap
    | cons next rest =>
      rw [(hmore.opens (hmeets.no_gap hgap next rfl) r).firstLine.not_endsParagraph]
      exact Bool.false_ne_true
  have htail {node : Inline} {more : List Inline} {r : Text}
      (hr : (∀ last ∈ (node :: more).getLast?, ¬IsGap last) ∨ ¬endsParagraph (firstLine r)) :
      (∀ last ∈ more.getLast?, ¬IsGap last) ∨ ¬endsParagraph (firstLine r) := by
    refine hr.imp_left fun hlast last hmem => hlast last ?_
    cases more with
    | nil => cases hmem
    | cons => exact hmem
  induction h generalizing r with
  | nil =>
    rw [spellInlines]
    trivial
  | leaf hleaf hmeets hmore ih =>
    rw [spellInlines, flows_append]
    exact ⟨hleaf.flows hp (hbehind hmore hmeets hr), ih hp (htail hr)⟩
  | styled style _ _ _ ihcontent ih =>
    rw [spellInlines, spellInline, flows_append]
    exact ⟨flows_command (styleCommand_mem style)
      (ihcontent hp (.inr (not_endsParagraph_brace _))), ih hp (htail hr)⟩
  | link _ hadmits _ _ _ ihcontent ih =>
    rw [spellInlines, spellInline, flows_append, flows_append, ← List.singleton_append,
      flows_append, flows_append]
    refine ⟨⟨flows_command (by simp [inlineCommands]) (hadmits.flows hp (by simp) _), ?_, ?_, ?_⟩,
      ih hp (htail hr)⟩
    · exact flows_of_not_mem (by simp) _
    · exact ihcontent hp (.inr (not_endsParagraph_brace _))
    · exact flows_of_not_mem (by simp) _

theorem Place.Leaf.last_not_blank (h : p.Leaf node) (hgap : ¬IsGap node) :
    ∀ c ∈ (spellInline node).getLast?, ¬c.isBlank := by
  cases h with
  | word hword =>
    rw [spellInline]
    exact fun c hc => (hword.2.1 c (List.mem_of_mem_getLast? hc)).1
  | space | softBreak => exact absurd trivial hgap
  | lineBreak =>
    rw [spellInline]
    rintro _ ⟨rfl⟩
    decide
  | math =>
    rw [spellInline, ← List.cons_append, List.getLast?_concat]
    rintro _ ⟨rfl⟩
    decide
  | code =>
    rw [spellInline]
    exact spellCommand_last

theorem CanonicalInlines.last_not_blank (h : CanonicalInlines p nodes)
    (hgap : ∀ last ∈ nodes.getLast?, ¬IsGap last) :
    ∀ c ∈ (spellInlines nodes).getLast?, ¬c.isBlank := by
  have hstep {p : Place} {node : Inline} {more : List Inline} (hmore : CanonicalInlines p more)
      (hgap : ∀ last ∈ (node :: more).getLast?, ¬IsGap last)
      (hnode : ¬IsGap node → ∀ c ∈ (spellInline node).getLast?, ¬c.isBlank)
      (ih : (∀ last ∈ more.getLast?, ¬IsGap last) →
        ∀ c ∈ (spellInlines more).getLast?, ¬c.isBlank) :
      ∀ c ∈ (spellInlines (node :: more)).getLast?, ¬c.isBlank := by
    intro c hc
    rw [spellInlines, List.getLast?_append, Option.mem_def, Option.or_eq_some_iff] at hc
    cases more with
    | nil =>
      rw [spellInlines] at hc
      exact hnode (hgap node rfl) c (hc.resolve_left (by simp)).2
    | cons next rest =>
      obtain ⟨d, t, hspell, _⟩ := hmore.starts
      refine ih (fun last hlast => hgap last hlast) c (hc.resolve_right ?_)
      rw [spellInlines, hspell]
      simp
  induction h with
  | nil =>
    rw [spellInlines]
    simp
  | leaf hleaf _ hmore ih => exact hstep hmore hgap hleaf.last_not_blank ih
  | styled style _ _ hmore _ ih =>
    refine hstep hmore hgap (fun _ => ?_) ih
    rw [spellInline]
    exact spellCommand_last
  | link _ _ _ _ hmore _ ih =>
    refine hstep hmore hgap (fun _ => ?_) ih
    rw [spellInline, ← List.cons_append, ← List.append_assoc, List.getLast?_concat]
    rintro _ ⟨rfl⟩
    decide

end

/-! ### Paragraphs -/

/-- The first piece decides about the first block. -/
theorem readBlocks_cons {c : Char} {s : Text} (hblank : ¬c.isBlank) (hpercent : c ≠ '%') :
    readBlocks (c :: s) = match Piece.first (c :: s) with
      | (.paragraph t, rest) => readParagraph t :: readBlocks rest
      | (.heading h, rest) =>
        .header h.level (.ofId h.label) (readInlines h.title) :: readBlocks rest
      | (.environment e, rest) =>
        (if e.name = ("itemize" : Text) then .bullets ((items e.body).map readBlocks)
        else if e.name = ("enumerate" : Text) then
          .numbered sourceNumbering ((items e.body).map readBlocks)
        else readEnvironment e) :: readBlocks rest := by
  have hnext : Piece.next? (c :: s) = some (Piece.first (c :: s)) := by
    rw [Piece.next?, skipComments_cons hblank hpercent]
  obtain ⟨piece, rest, hfirst⟩ : ∃ piece rest, Piece.first (c :: s) = (piece, rest) := ⟨_, _, rfl⟩
  rw [hfirst] at hnext ⊢
  rw [readBlocks]
  split
  · next heq =>
    rw [hnext] at heq
    cases heq
  · next heq =>
    rw [hnext] at heq
    cases heq
    rfl
  · next heq =>
    rw [hnext] at heq
    cases heq
    rfl
  · next heq =>
    rw [hnext] at heq
    cases heq
    simp only [List.map_attach_eq_pmap, List.pmap_eq_map]

/-- The name of a command with its groups is that of the command. -/
theorem rawCommand?_command {name : Text} (hname : name ∈ inlineCommands) (s : Text) :
    ∃ raw after more, rawCommand? ('\\' :: (name ++ '{' :: s)) = some (raw, after) ∧
      commandName? raw = some (name, more) := by
  obtain ⟨hne, hletters, _⟩ := inlineCommands_letters hname
  have hraw : rawCommand? ('\\' :: (name ++ '{' :: s)) =
      some ('\\' :: (name ++ (groups ('{' :: s)).1), (groups ('{' :: s)).2) := by
    rw [rawCommand?, commandName?_cons hne hletters]
    simp [star, onto]
  have hgroups := groups_eq ('{' :: s)
  cases hfront : (groups ('{' :: s)).1 with
  | nil =>
    rw [hfront, List.append_nil] at hraw
    have htake : name.takeWhile Char.isAlpha = name := by
      have htake : (name ++ []).takeWhile Char.isAlpha = name ++ [] :=
        List.takeWhile_append_of_pos hletters
      rwa [List.append_nil] at htake
    exact ⟨_, _, _, hraw, by rw [commandName?, if_pos rfl, htake]; exact if_neg hne⟩
  | cons c front =>
    rw [hfront, List.cons_append, List.cons.injEq] at hgroups
    rw [hfront, hgroups.1] at hraw
    exact ⟨_, _, _, hraw, commandName?_cons hne hletters front⟩

/-- A command that is all of a paragraph has a node of its own. -/
theorem readParagraph_opens {x t : Text} (h : Opens x) (htrim : trim t = x) :
    readParagraph t = .para (readInlines x) := by
  unfold readParagraph
  dsimp only
  rw [htrim]
  rcases h.command_or_none with hnone | ⟨name, more, hname, rfl⟩
  · have hraw : rawCommand? x = none := by
      rw [rawCommand?, hnone]
    rw [hraw]
  · obtain ⟨raw, after, rest, hraw, hsame⟩ := rawCommand?_command hname more
    have hnative : name ∈ nativeCommands := by
      simpa using (inlineCommands_spec hname).2.2.1
    simp [hraw, hsame, hnative]

theorem readBlocks_paragraph {s : Text} (h : Opens s) :
    readBlocks s = readParagraph (takeParagraph s).1 :: readBlocks (takeParagraph s).2 := by
  have hfirst := Piece.first_of_not_startsBlock (Bool.eq_false_iff.1 h.not_startsBlock)
  obtain ⟨c, more, rfl, hblank, hpercent⟩ := h.exists_cons
  rw [readBlocks_cons hblank hpercent, hfirst]

section

variable {p : Place} {content : List Inline} (h : CanonicalInlines p content)

include h

theorem CanonicalInlines.opens_of_ne_nil (hne : content ≠ [])
    (hfirst : ∀ first ∈ content.head?, ¬IsGap first) (r : Text) :
    Opens (spellInlines content ++ r) := by
  obtain ⟨node, more, rfl⟩ := List.exists_cons_of_ne_nil hne
  exact h.opens (hfirst node rfl) r

theorem readBlocks_para (hp : p.byLine) (hne : content ≠ [])
    (hfirst : ∀ first ∈ content.head?, ¬IsGap first)
    (hlast : ∀ last ∈ content.getLast?, ¬IsGap last) {r : Text} (hr : EndsBefore r) :
    readBlocks (spellInlines content ++ r) = .para content :: readBlocks (r.drop 1) := by
  have hopens := h.opens_of_ne_nil hne hfirst
  have htaken := takeParagraph_flows (h.flows hp (.inl hlast)) hr
  have hblank : ∀ c ∈ r.take 1, c.isBlank := by
    rcases hr with rfl | ⟨s, rfl, _⟩ <;> simp [Char.isBlank]
  have hopen : Opens (spellInlines content) := by
    simpa using hopens []
  have htrim :=
    trim_append_blanks (h.beginsAs.head_not_blank hfirst) (h.last_not_blank hlast) hblank
  rw [readBlocks_paragraph (hopens r), htaken]
  dsimp only
  rw [readParagraph_opens hopen htrim, readInlines_spellInlines h]

end

/-! ### Headings -/

theorem sectionCommand_spec {level : UInt8} (h : level ∈ [(1 : UInt8), 2, 3]) :
    sectionCommand level ≠ [] ∧ (sectionCommand level).all Char.isAlpha ∧
      sectionLevel? (sectionCommand level) = some level ∧
      ∀ mark ∈ [("\\begin" : Text), "\\label"],
        mark.isPrefixOf? ('\\' :: sectionCommand level) = none := by
  revert level
  decide +kernel

theorem headingLabel_nil {r : Text} (h : ("\\label" : Text).isPrefixOf? (dropLayout r) = none) :
    headingLabel r = ([], r) := by
  rw [headingLabel, h]

theorem headingLabel_spelled {id : Text} (htrim : trim id = id) (hid : Closed id) (r : Text) :
    headingLabel (spellCommand "label" id ++ r) = (id, r) := by
  have hlabel : ("\\label" : Text).isPrefixOf? (dropLayout (spellCommand "label" id ++ r)) =
      some ('{' :: (id ++ '}' :: r)) := by
    rw [isPrefixOf?_eq_some]
    simp [spellCommand, dropLayout, Char.isLayout]
  have hgroup : spacedBraced? ('{' :: (id ++ '}' :: r)) = some (id, r) :=
    spacedBraced?_argument hid.passesBraces r
  rw [headingLabel, hlabel]
  dsimp only
  rw [hgroup]
  dsimp only
  rw [htrim]

theorem readBlocks_header {p : Place} {level : UInt8} {id r : Text} {content : List Inline}
    (h : CanonicalInlines p content) (hp : p.grouped) (hlevel : level ∈ [(1 : UInt8), 2, 3])
    (htrim : trim id = id) (hid : Closed id)
    (hr : ("\\label" : Text).isPrefixOf? (dropLayout r) = none) :
    readBlocks (spellBlock (.header level (.ofId id) content) ++ r) =
      .header level (.ofId id) content :: readBlocks r := by
  obtain ⟨hne, hletters, hsection, hmarks⟩ := sectionCommand_spec hlevel
  have hletters := List.all_eq_true.1 hletters
  have hlabel :
      headingLabel ((if id = [] then [] else spellCommand "label" id) ++ r) = (id, r) := by
    split
    · next hnil =>
      rw [hnil]
      exact headingLabel_nil hr
    · exact headingLabel_spelled htrim hid r
  have hspelled : spellBlock (.header level (.ofId id) content) ++ r =
      '\\' :: (sectionCommand level ++ '{' :: (spellInlines content ++
        '}' :: ((if id = [] then [] else spellCommand "label" id) ++ r))) := by
    simp [spellBlock, spellCommand, Attr.ofId]
  have htitle := spacedBraced?_argument (h.passesBraces hp)
    ((if id = [] then [] else spellCommand "label" id) ++ r)
  rw [hspelled]
  generalize (if id = [] then [] else spellCommand "label" id) ++ r = after at *
  have henvironment : environment? ('\\' :: (sectionCommand level ++
      '{' :: (spellInlines content ++ '}' :: after))) = none := by
    apply environment?_eq_none
    rw [← List.cons_append, isPrefixOf?_append_cons (by simp), hmarks _ (by simp)]
    rfl
  have hheading : heading? ('\\' :: (sectionCommand level ++
      '{' :: (spellInlines content ++ '}' :: after))) =
        some (⟨level, id, spellInlines content⟩, r) := by
    rw [heading?, commandName?_cons hne hletters]
    simp [star, hsection, htitle, hlabel]
  rw [readBlocks_cons (by decide) (by decide), Piece.first, henvironment, hheading]
  dsimp only
  rw [readInlines_spellInlines h]

end Source

end TexCatalog
