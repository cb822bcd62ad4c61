import TexCatalog.Html.Grid
import TexCatalog.Proofs.BalancedBodies
import TexCatalog.Proofs.TopLevelParts
import TexCatalog.Proofs.TrimmedMarkup

/-!
# Tables from their grids

A grid of cells is written with ampersands between the cells and double backslashes between the
rows, in an environment or in the braces of a command. The table that is read from it has the cells
of the grid, row by row, unless a column specification holds the end of its own environment.
-/

namespace TexCatalog

namespace Source

open Text

/-! ### Bodies behind an argument -/

theorem Nesting.behind_mark {name : Text} (hname : ∀ c ∈ name, isNameChar c) (n : Nesting) :
    n.behind ("\\begin\x7b" ++ name) = ⟨n.braces + 1, false⟩ ∧
      n.behind ("\\end\x7b" ++ name) = ⟨n.braces + 1, false⟩ := by
  have hplain : ∀ c ∈ name, c ∉ ("\\\x7b\x7d" : Text) := by
    intro c hc hmem
    have hchar := hname c hc
    simp only [ofString_eq, String.reduceToList, List.mem_cons, List.not_mem_nil, or_false] at hmem
    rcases hmem with rfl | rfl | rfl <;> exact absurd hchar (by decide)
  have hopen : n.behind ("\\begin\x7b" : Text) = ⟨n.braces + 1, false⟩ := by
    obtain ⟨braces, _ | _⟩ := n <;> simp [step]
  have hclose : n.behind ("\\end\x7b" : Text) = ⟨n.braces + 1, false⟩ := by
    obtain ⟨braces, _ | _⟩ := n <;> simp [step]
  rw [behind_append, behind_append, hopen, hclose, behind_plain _ hplain]
  exact ⟨rfl, rfl⟩

/-- A mark ends in its only closing brace, so the end of a text outside braces is not in it. -/
theorem not_prefix_of_mark {front x : Text} (hbrace : '}' ∉ front)
    (hinside : ∀ n : Nesting, n.behind front = ⟨n.braces + 1, false⟩) (hx : TopLevel x)
    {u v : Text} (hv : v ≠ []) (huv : u ++ v = front ++ ['}']) (hu : u <:+ x) (y : Text) :
    ¬v <+: '}' :: y := by
  obtain ⟨c, v, rfl⟩ := List.exists_cons_of_ne_nil hv
  rw [List.cons_prefix_cons]
  rintro ⟨rfl, -⟩
  obtain ⟨rfl, -⟩ := (List.append_cons_inj_of_notMem hbrace (List.not_mem_nil)).1 huv.symm
  obtain ⟨before, rfl⟩ := hu
  rw [TopLevel, Nesting.behind_append, hinside, Nesting.top, Nesting.mk.injEq] at hx
  exact Nat.succ_ne_zero _ hx.1

section

variable {name argument body : Text} (hname : ∀ c ∈ name, isNameChar c)
  (hargument : TopLevel argument)

include hname hargument

/-- All marks of an environment are in its argument if there are none in what stands behind it. -/
theorem occurrences_argument {mark : Text} (hmark : mark = opener name ∨ mark = closer name)
    (hnone : ¬mark <:+: body) {q : Text} (hq : q <+: '}' :: body) :
    occurrences mark ('{' :: (argument ++ q)) = occurrences mark argument := by
  have hbrace : '}' ∉ name := fun hc => absurd (hname _ hc) (by decide)
  obtain ⟨front, hfront, hfree, hinside⟩ : ∃ front, mark = front ++ ['}'] ∧ '}' ∉ front ∧
      ∀ n : Nesting, n.behind front = ⟨n.braces + 1, false⟩ := by
    rcases hmark with rfl | rfl
    · exact ⟨"\\begin\x7b" ++ name, by simp [opener], by simp [hbrace],
        fun n => (Nesting.behind_mark hname n).1⟩
    · exact ⟨"\\end\x7b" ++ name, by simp [closer], by simp [hbrace],
        fun n => (Nesting.behind_mark hname n).2⟩
  have his : IsMark mark := by
    rcases hmark with rfl | rfl
    · exact opener_isMark hname
    · exact closer_isMark hname
  have hzero : occurrences mark q = 0 := by
    refine occurrences_of_absent fun hinfix => hnone ?_
    rw [← his.infix_cons (c := '}') (by decide)]
    exact hinfix.trans hq.isInfix
  rw [his.occurrences_cons (by decide), occurrences_append (by simp [hfront]), hzero, Nat.add_zero]
  intro u v _ hv huv hu hbegins
  exact not_prefix_of_mark hfree hinside hargument hv (huv.trans hfront) hu body (hbegins.trans hq)

/-- Behind an argument that is balanced itself a body without marks is balanced. -/
theorem Balanced.behind_argument (h : Balanced name argument) (hopen : ¬opener name <:+: body)
    (hclose : ¬closer name <:+: body) : Balanced name ('{' :: (argument ++ '}' :: body)) := by
  have hopens {q : Text} := occurrences_argument hname hargument (.inl rfl) hopen (q := q)
  have hcloses {q : Text} := occurrences_argument hname hargument (.inr rfl) hclose (q := q)
  refine ⟨fun front hfront => ?_, ?_⟩
  · rcases List.prefix_cons_iff.1 hfront with rfl | ⟨front, rfl, hinside⟩
    · rw [(closer_isMark hname).occurrences_nil]
      exact Nat.zero_le _
    · rcases List.prefix_or_prefix_of_prefix hinside (List.prefix_append argument _) with
        hwithin | ⟨q, rfl⟩
      · rw [(closer_isMark hname).occurrences_cons (by decide),
          (opener_isMark hname).occurrences_cons (by decide)]
        exact h.1 front hwithin
      · have hq := (List.prefix_append_right_inj argument).1 hinside
        rw [hopens hq, hcloses hq, h.2]
  · rw [hopens (List.prefix_refl _), hcloses (List.prefix_refl _), h.2]

end

theorem balanced_of_absent {name body : Text} (hopen : ¬opener name <:+: body)
    (hclose : ¬closer name <:+: body) : Balanced name body := by
  refine ⟨fun front hfront => ?_, ?_⟩
  · rw [occurrences_of_absent fun h => hclose (h.trans hfront.isInfix)]
    exact Nat.zero_le _
  · rw [occurrences_of_absent hopen, occurrences_of_absent hclose]

end Source

namespace Grid

open Text Source

/-! ### Grids as they are written -/

inductive Frame
  | ytableau
  | array (columns : Text)
  | rtabular (columns : Text)
  | ytab
  deriving DecidableEq

def Frame.kind : Frame → Kind
  | ytableau => .ytableau
  | array _ => .array
  | rtabular _ => .rtabular
  | ytab => .ytab

def Frame.spell (body : Text) : Frame → Text
  | ytableau => enclose Kind.ytableau.name body
  | array columns => enclose Kind.array.name ('{' :: (columns ++ '}' :: body))
  | rtabular columns => enclose Kind.rtabular.name ('{' :: (columns ++ '}' :: body))
  | ytab => "\\ytab\x7b" ++ body ++ "\x7d"

def Frame.WellFormed : Frame → Prop
  | array columns => BraceBalanced columns ∧ Balanced Kind.array.name columns
  | rtabular columns => BraceBalanced columns ∧ Balanced Kind.rtabular.name columns
  | ytableau | ytab => True

instance : DecidablePred Frame.WellFormed
  | .array columns =>
    inferInstanceAs (Decidable (BraceBalanced columns ∧ Balanced Kind.array.name columns))
  | .rtabular columns =>
    inferInstanceAs (Decidable (BraceBalanced columns ∧ Balanced Kind.rtabular.name columns))
  | .ytableau | .ytab => inferInstanceAs (Decidable True)

def spellRow (row : List Text) : Text := join " & " row

def spellRows (rows : List (List Text)) : Text := join " \\\\ " (rows.map spellRow)

/-- Cells and rows are separated at their marks, and no mark of a cell parts rows. -/
theorem separators : Separates "&" ∧ Separates "\\\\" ∧ TopLevel "&" ∧ Unparted "\\\\" "&" := by
  decide +kernel

def marks : List Text := ["\\hline", "\\begin", "\\end"]

structure IsCell (cell : Text) : Prop where
  trimmed : trim cell = cell
  balanced : BraceBalanced cell
  oneCell : Unparted "&" cell
  oneRow : Unparted "\\\\" cell
  unmarked : ∀ mark ∈ marks, ¬mark <:+: cell

instance (cell : Text) : Decidable (IsCell cell) :=
  decidable_of_iff (trim cell = cell ∧ BraceBalanced cell ∧ Unparted "&" cell ∧
      Unparted "\\\\" cell ∧ ∀ mark ∈ marks, ¬mark <:+: cell)
    ⟨fun h => ⟨h.1, h.2.1, h.2.2.1, h.2.2.2.1, h.2.2.2.2⟩,
      fun h => ⟨h.trimmed, h.balanced, h.oneCell, h.oneRow, h.unmarked⟩⟩

/-- Cells are written as they are, no row is blank, and no first bracket is taken for an option. -/
structure Printable (frame : Frame) (rows : List (List Text)) : Prop where
  framed : frame.WellFormed
  cells : ∀ row ∈ rows, ∀ cell ∈ row, IsCell cell
  shown : ∀ row ∈ rows, ¬isBlank (spellRow row)
  unbracketed : frame = .ytableau → ∀ row ∈ rows.head?, ∀ cell ∈ row.head?, cell.head? ≠ some '['

/-- The cell that a text without blanks at its ends is read as. -/
def plainCell (t : Text) : Cell := if t = ("none" : Text) then .blank else .text t

def ofRows (kind : Kind) (rows : List (List Text)) : Grid := ⟨kind, rows.map (·.map plainCell)⟩

/-! ### Reading rows and cells -/

theorem mark_spaceless {mark : Text} (h : mark ∈ marks) :
    (∀ c ∈ mark, ¬c.isBlank) ∧ mark ≠ [] ∧ ¬mark <:+: "&" ∧ ¬mark <:+: "\\\\" := by
  simp only [marks, List.mem_cons, List.not_mem_nil, or_false] at h
  rcases h with rfl | rfl | rfl <;>
    simp [Char.isBlank, List.infix_cons_iff]

theorem spaced_amp : spaced "&" = " & " := by simp [spaced]

theorem spaced_backslashes : spaced "\\\\" = " \\\\ " := by simp [spaced]

section

variable {row : List Text} (hrow : ∀ cell ∈ row, IsCell cell)

include hrow

theorem spellRow_balanced : BraceBalanced (spellRow row) := by
  have hsep : BraceBalanced " & " := .of_plain (by simp)
  exact hsep.join fun cell hcell => (hrow cell hcell).balanced

theorem spellRow_unparted : Unparted "\\\\" (spellRow row) := by
  rw [spellRow, ← spaced_amp]
  refine .join (by simp) (by simp) separators.2.2 fun cell hcell => ?_
  exact ⟨(hrow cell hcell).balanced.topLevel, (hrow cell hcell).oneRow⟩

theorem spellRow_unmarked {mark : Text} (hmark : mark ∈ marks) : ¬mark <:+: spellRow row := by
  obtain ⟨hblank, hne, hamp, _⟩ := mark_spaceless hmark
  rw [spellRow, ← spaced_amp]
  intro h
  obtain ⟨cell, hcell, hinfix⟩ :=
    exists_infix_of_join (fun hspace => hblank _ hspace (by decide)) hne hamp h
  exact (hrow cell hcell).unmarked mark hmark hinfix

theorem map_cell_spellRow (hne : row ≠ []) :
    (splitTopLevel "&" (trim (spellRow row))).map cell = row.map plainCell := by
  have hamp : Separates "&" := separators.1
  have hcells : (splitTopLevel "&" (spellRow row)).map trim = row.map trim := by
    rw [spellRow, ← spaced_amp]
    exact splitTopLevel_join hamp hne fun cell hcell =>
      ⟨(hrow cell hcell).balanced.topLevel, (hrow cell hcell).oneCell⟩
  have htrim : row.map trim = row := by
    rw [List.map_congr_left fun cell hcell => (hrow cell hcell).trimmed, List.map_id']
  have hcell : cell = plainCell ∘ trim := rfl
  rw [hcell, ← List.map_map, map_trim_splitTopLevel_trim hamp, hcells, htrim]

end

section

variable {rows : List (List Text)} (hcells : ∀ row ∈ rows, ∀ cell ∈ row, IsCell cell)

include hcells

theorem spellRows_balanced : BraceBalanced (spellRows rows) := by
  have hsep : BraceBalanced " \\\\ " := by
    have hspelled : BraceBalanced [' ', '\\', '\\', ' '] :=
      .char (by decide_cbv) (.escaped _ (.char (by decide_cbv) .nil))
    simpa using hspelled
  refine hsep.join ?_
  rw [List.forall_mem_map]
  exact fun row hrow => spellRow_balanced (hcells row hrow)

theorem spellRows_unmarked {mark : Text} (hmark : mark ∈ marks) : ¬mark <:+: spellRows rows := by
  obtain ⟨hblank, hne, _, hbackslashes⟩ := mark_spaceless hmark
  rw [spellRows, ← spaced_backslashes]
  intro h
  obtain ⟨line, hline, hinfix⟩ :=
    exists_infix_of_join (fun hspace => hblank _ hspace (by decide)) hne hbackslashes h
  obtain ⟨row, hrow, rfl⟩ := List.mem_map.1 hline
  exact spellRow_unmarked (hcells row hrow) hmark hinfix

/-- The rows of a grid are read from its text. -/
theorem readRows_spellRows (hshown : ∀ row ∈ rows, ¬isBlank (spellRow row)) :
    readRows (spellRows rows) = rows.map (·.map plainCell) := by
  rcases Decidable.eq_or_ne rows [] with rfl | hrows
  · decide_cbv
  have hne : rows.map spellRow ≠ [] := mt List.map_eq_nil_iff.1 hrows
  have hlines : (splitTopLevel "\\\\" (spellRows rows)).map trim =
      (rows.map spellRow).map trim := by
    rw [spellRows, ← spaced_backslashes]
    refine splitTopLevel_join separators.2.1 hne ?_
    rw [List.forall_mem_map]
    exact fun row hrow =>
      ⟨(spellRow_balanced (hcells row hrow)).topLevel, spellRow_unparted (hcells row hrow)⟩
  have hplain : (splitTopLevel "\\\\" (spellRows rows)).map plainRow =
      (rows.map spellRow).map trim := by
    rw [← hlines]
    refine List.map_congr_left fun line hline => ?_
    have hrule : ("\\hline" : Text) ∈ marks := List.mem_cons_self ..
    obtain ⟨hblank, hnil, _⟩ := mark_spaceless hrule
    have hmem := List.mem_map_of_mem (f := trim) hline
    rw [hlines, List.map_map] at hmem
    obtain ⟨row, hrow, htrim⟩ := List.mem_map.1 hmem
    have hnone : ¬("\\hline" : Text) <:+: line := by
      rw [← infix_trim_iff hblank hnil, ← htrim, Function.comp_apply, infix_trim_iff hblank hnil]
      exact spellRow_unmarked (hcells row hrow) hrule
    rw [plainRow, replace_of_absent hnone]
  have hkept : ((rows.map spellRow).map trim).filter (· ≠ []) = (rows.map spellRow).map trim := by
    rw [List.filter_eq_self, List.forall_mem_map, List.forall_mem_map]
    intro row hrow
    simpa [trim_eq_nil_iff] using hshown row hrow
  rw [readRows, hplain, hkept, List.map_map, List.map_map]
  refine List.map_congr_left fun row hrow => map_cell_spellRow (hcells row hrow) ?_
  rintro rfl
  exact hshown [] hrow (by decide)

end

/-! ### Reading tables -/

theorem Kind.name_ne_nil (kind : Kind) : kind.name ≠ [] := by
  cases kind <;> simp [name]

theorem Kind.name_inj {kind other : Kind} : kind.name = other.name ↔ kind = other := by
  cases kind <;> cases other <;> simp [name]

theorem Kind.isNameChar (kind : Kind) : ∀ c ∈ kind.name, isNameChar c := by
  cases kind <;> simp [name, Source.isNameChar]

/-- An environment that is balanced in the marks of its name is read with the text in it. -/
theorem body?_enclose {kind : Kind} {inside : Text} (h : Balanced kind.name inside) :
    body? (enclose kind.name inside) =
      ofEnvironment? ⟨kind.name, inside, enclose kind.name inside⟩ := by
  rw [body?, environment?_enclose kind.isNameChar kind.name_ne_nil h]
  rfl

section

variable {body : Text} (hbody : BraceBalanced body)

include hbody

theorem body?_ytab : body? (Frame.ytab.spell body) = some (.ytab, body) := by
  have hname : commandName? (Frame.ytab.spell body) =
      some (Kind.ytab.name, '{' :: (body ++ ['}'])) := by
    have hletters : ∀ c ∈ Kind.ytab.name, c.isAlpha := List.all_eq_true.1 (by simp [Kind.name])
    have hword := commandName?_word (c := '{') Kind.ytab.name_ne_nil hletters (by decide)
      (body ++ ['}'])
    rw [← hword]
    simp [Frame.spell, Kind.name]
  rw [body?, environment?_of_commandName hname (by decide_cbv), ofCommand?, hname]
  simp [spacedBraced?_argument hbody.passesBraces, isBlank]

variable (hbegin : ¬("\\begin" : Text) <:+: body) (hend : ¬("\\end" : Text) <:+: body)

include hbegin hend

/-- A table is read with the text in its frame as its rows. -/
theorem body?_spell {frame : Frame} (hframe : frame.WellFormed)
    (hbracket : frame = .ytableau → spacedBracketed? body = none) :
    body? (frame.spell body) = some (frame.kind, body) := by
  have hopen (name : Text) : ¬opener name <:+: body := by
    have hfront : ("\\begin" : Text) <+: opener name := ⟨"\x7b" ++ name ++ "\x7d", by simp [opener]⟩
    exact fun h => hbegin (hfront.isInfix.trans h)
  have hclose (name : Text) : ¬closer name <:+: body := by
    have hfront : ("\\end" : Text) <+: closer name := ⟨"\x7b" ++ name ++ "\x7d", by simp [closer]⟩
    exact fun h => hend (hfront.isInfix.trans h)
  have hargument {kind : Kind} {columns : Text} (hcolumns : BraceBalanced columns)
      (h : Balanced kind.name columns) :
      body? (enclose kind.name ('{' :: (columns ++ '}' :: body))) =
        ofEnvironment? ⟨kind.name, '{' :: (columns ++ '}' :: body),
          enclose kind.name ('{' :: (columns ++ '}' :: body))⟩ :=
    body?_enclose (h.behind_argument kind.isNameChar hcolumns.topLevel (hopen _) (hclose _))
  cases frame with
  | ytableau =>
    rw [Frame.spell, body?_enclose (balanced_of_absent (hopen _) (hclose _)), ofEnvironment?,
      if_pos rfl, hbracket rfl]
    rfl
  | array columns =>
    rw [Frame.spell, hargument hframe.1 hframe.2, ofEnvironment?,
      if_neg (mt Kind.name_inj.1 (by decide)), if_pos rfl,
      spacedBraced?_argument hframe.1.passesBraces]
    rfl
  | rtabular columns =>
    rw [Frame.spell, hargument hframe.1 hframe.2, ofEnvironment?,
      if_neg (mt Kind.name_inj.1 (by decide)), if_neg (mt Kind.name_inj.1 (by decide)),
      if_pos rfl, spacedBraced?_argument hframe.1.passesBraces]
    rfl
  | ytab => exact body?_ytab hbody

end

/-- Only a bracket behind layout opens an option. -/
theorem spacedBracketed?_append_cons {gap : Text} {c : Char} (hgap : ∀ d ∈ gap, d.isLayout)
    (hc : ¬c.isLayout) (hbracket : c ≠ '[') (s : Text) :
    spacedBracketed? (gap ++ c :: s) = none := by
  rw [spacedBracketed?, dropLayout, dropWhile_append_cons hgap hc, bracketed?, if_neg hbracket]

/-- The text of a grid has no option in front if its first cell does not begin with a bracket. -/
theorem spacedBracketed?_spellRows {rows : List (List Text)}
    (hcells : ∀ row ∈ rows, ∀ cell ∈ row, IsCell cell)
    (hshown : ∀ row ∈ rows, ¬isBlank (spellRow row))
    (hfirst : ∀ row ∈ rows.head?, ∀ cell ∈ row.head?, cell.head? ≠ some '[') :
    spacedBracketed? (spellRows rows) = none := by
  rcases rows with _ | ⟨_ | ⟨cell, cells⟩, more⟩
  · rfl
  · exact absurd (by decide) (hshown [] (List.mem_cons_self ..))
  obtain ⟨rest, hrest⟩ : spellRow (cell :: cells) <+: spellRows ((cell :: cells) :: more) :=
    prefix_join " \\\\ " (((cell :: cells) :: more).map spellRow)
  rw [← hrest]
  cases cell with
  | nil =>
    cases cells with
    | nil => exact absurd (by decide) (hshown [[]] (List.mem_cons_self ..))
    | cons next cells =>
      have hamp : spellRow ([] :: next :: cells) =
          [' '] ++ '&' :: ' ' :: spellRow (next :: cells) := by
        simp [spellRow, join]
      rw [hamp, List.append_assoc]
      exact spacedBracketed?_append_cons (List.forall_mem_singleton.2 (by decide)) (by decide)
        (by decide) _
  | cons c cell =>
    obtain ⟨beyond, hbeyond⟩ : c :: cell <+: spellRow ((c :: cell) :: cells) :=
      prefix_join " & " ((c :: cell) :: cells)
    rw [← hbeyond]
    have htrim := (hcells _ (List.mem_cons_self ..) _ (List.mem_cons_self ..)).trimmed
    have hblank : ¬c.isBlank := not_blank_of_trimStart (trimStart_of_trim htrim)
    refine spacedBracketed?_append_cons (List.forall_mem_nil _) (mt isBlank_of_isLayout hblank) ?_ _
    rintro rfl
    exact hfirst _ rfl _ rfl rfl

theorem trim_spell (frame : Frame) (body : Text) : trim (frame.spell body) = frame.spell body := by
  cases frame with
  | ytableau | array | rtabular => exact trim_enclose
  | ytab =>
    have hstart : trimStart (Frame.ytab.spell body) = Frame.ytab.spell body := by
      simp [trimStart, Frame.spell, Char.isBlank]
    have hend : trimEnd (Frame.ytab.spell body) = Frame.ytab.spell body := by
      simp [trimEnd, Frame.spell, Char.isBlank]
    rw [trim, hstart, hend]

/-! ### Printing tables -/

def cellMarkup (cell : Text) : Text :=
  if cell = ("none" : Text) then "<td class=\"none\"></td>"
  else ("<td>" : Text) ++ Html.escape cell ++ ("</td>" : Text)

def rowMarkup (row : List Text) : Text :=
  ("<tr>" : Text) ++ row.flatMap cellMarkup ++ ("</tr>\n" : Text)

/-- The markup of a grid: a row for each of its rows, and in it an element for each cell. -/
def markup (kind : Kind) (rows : List (List Text)) : Text :=
  ("<table class=\"latextable " : Text) ++ kind.name ++ ("\">\n" : Text) ++
    rows.flatMap rowMarkup ++ ("</table>" : Text)

theorem print_plainCell (cell : Text) : (plainCell cell).toHtml.print = cellMarkup cell := by
  unfold plainCell cellMarkup
  split
  · decide_cbv
  · simp [Cell.toHtml, Html.print, Html.printAttributes, Html.Tag.name]

theorem printAll_row (row : List Text) :
    Html.printAll [.element .tr [] ((row.map plainCell).map Cell.toHtml), .newline] =
      rowMarkup row := by
  have hcells : Html.printAll ((row.map plainCell).map Cell.toHtml) = row.flatMap cellMarkup := by
    induction row with
    | nil => rfl
    | cons cell row ih =>
      rw [List.map_cons, List.map_cons, Html.printAll_cons, print_plainCell, ih, List.flatMap_cons]
  have hbreak : Html.newline.print = ['\n'] := by decide_cbv
  rw [Html.printAll_cons, Html.print, hcells, Html.printAll_cons, hbreak]
  simp [rowMarkup, Html.printAttributes, Html.Tag.name]

theorem print_ofRows (kind : Kind) (rows : List (List Text)) :
    (ofRows kind rows).toHtml.print = markup kind rows := by
  have hclass : Html.printAttribute ⟨"class", "latextable " ++ kind.name⟩ =
      (" class=\"latextable " : Text) ++ kind.name ++ ("\"" : Text) := by
    cases kind <;> decide_cbv
  have hrows : Html.printAll ((ofRows kind rows).rows.flatMap fun row =>
      [.element .tr [] (row.map Cell.toHtml), .newline]) = rows.flatMap rowMarkup := by
    rw [ofRows]
    induction rows with
    | nil => rfl
    | cons row rows ih =>
      rw [List.map_cons, List.flatMap_cons, Html.printAll_append, printAll_row, ih,
        List.flatMap_cons]
  have hbreak : Html.newline.print = ['\n'] := by decide_cbv
  rw [toHtml, Html.print, Html.printAll_cons, hrows, hbreak, Html.printAttributes,
    List.flatMap_singleton, ofRows, hclass]
  simp [markup, Html.Tag.name]

/-- The table of every printable grid is read from its text, and has its cells row by row. -/
theorem ofText?_spell {frame : Frame} {rows : List (List Text)} (h : Printable frame rows) :
    ofText? (frame.spell (spellRows rows)) = some (ofRows frame.kind rows) ∧
      (ofRows frame.kind rows).toHtml.print = markup frame.kind rows := by
  refine ⟨?_, print_ofRows frame.kind rows⟩
  have hbegin : ¬("\\begin" : Text) <:+: spellRows rows :=
    spellRows_unmarked h.cells (by simp [marks])
  have hend : ¬("\\end" : Text) <:+: spellRows rows :=
    spellRows_unmarked h.cells (by simp [marks])
  have hbody := body?_spell (spellRows_balanced h.cells) hbegin hend h.framed fun hframe =>
    spacedBracketed?_spellRows h.cells h.shown (h.unbracketed hframe)
  rw [ofText?, trim_spell, hbody, Option.map_some, readRows_spellRows h.cells h.shown]
  rfl

/-- An array with an array in its column specification, an escaped ampersand, a cell with separators
in braces, an empty one and one that is left out. -/
def crossedFrame : Frame := .array "c@\x7b\\begin\x7barray\x7d\x7bc\x7d\\end\x7barray\x7d\x7dc"

def crossedRows : List (List Text) :=
  [["a\\&b", "\x7bx & y \\\\ z\x7d"], ["", "<1>", "none"]]

theorem ofText?_spell_crossedRows : Printable crossedFrame crossedRows ∧
    ofText? (crossedFrame.spell (spellRows crossedRows)) =
      some (ofRows crossedFrame.kind crossedRows) ∧
    (ofRows crossedFrame.kind crossedRows).toHtml.print =
      markup crossedFrame.kind crossedRows := by
  have hprintable : Printable crossedFrame crossedRows :=
    ⟨by decide +kernel, by decide +kernel, by decide +kernel, by decide +kernel⟩
  exact ⟨hprintable, ofText?_spell hprintable⟩

/-- Braces alone do not keep a column specification apart: the end of its environment in it ends the
environment, and what stands behind makes it no table. -/
theorem ofText?_endInColumns : BraceBalanced "\\end\x7barray\x7d" ∧ IsCell "a" ∧
    ¬isBlank (spellRow ["a"]) ∧
    ofText? ((Frame.array "\\end\x7barray\x7d").spell (spellRows [["a"]])) = none := by
  decide +kernel

end Grid

end TexCatalog
