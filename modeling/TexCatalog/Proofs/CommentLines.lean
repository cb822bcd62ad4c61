import TexCatalog.Source.Clean

/-!
# Comment lines

Cleaning a source drops the text of a comment and keeps the end of its line. So a line that holds a
comment only is cleaned to a blank line, and a blank line it is to the reader: it ends a paragraph,
and it stays in the text of what is kept as source. Between two blocks a blank line counts for
nothing, and there a comment line counts for nothing as well.

The operations that clean a text go line by line: none of them looks for anything that holds the end
of a line, so each can be done in front of the end of a line and behind it.
-/

namespace TexCatalog

namespace Text

section

variable {part t s : Text} {sep : Char} (hpart : sep ∉ part)

include hpart

/-- What does not hold a character stands in front of it or not at all. -/
theorem isPrefixOf?_append_cons :
    part.isPrefixOf? (t ++ sep :: s) = (part.isPrefixOf? t).map (· ++ sep :: s) := by
  have hiff (rest : Text) : t ++ sep :: s = part ++ rest ↔
      ∃ inside, t = part ++ inside ∧ inside ++ sep :: s = rest := by
    constructor
    · intro h
      rcases List.append_eq_append_iff.1 h with ⟨beyond, hbeyond, hrest⟩ | ⟨inside, ht, hrest⟩
      · cases beyond with
        | nil => exact ⟨[], by rw [hbeyond, List.append_nil, List.append_nil], hrest⟩
        | cons c beyond =>
          rw [List.cons_append, List.cons.injEq] at hrest
          rw [hbeyond, hrest.1] at hpart
          exact absurd (List.mem_append_right t (List.mem_cons_self ..)) hpart
      · exact ⟨inside, ht, hrest.symm⟩
    · rintro ⟨inside, rfl, rfl⟩
      rw [List.append_assoc]
  apply Option.ext
  intro rest
  rw [isPrefixOf?_eq_some, hiff, Option.map_eq_some_iff]
  simp only [isPrefixOf?_eq_some]

theorem prefix_append_cons_iff : part <+: t ++ sep :: s ↔ part <+: t := by
  have hcons := isPrefixOf?_append_cons hpart (t := t) (s := s)
  constructor
  · rintro ⟨rest, hrest⟩
    rw [isPrefixOf?_eq_some.2 hrest.symm] at hcons
    obtain ⟨rest, hrest, _⟩ := Option.map_eq_some_iff.1 hcons.symm
    exact ⟨rest, (isPrefixOf?_eq_some.1 hrest).symm⟩
  · exact fun h => h.trans (List.prefix_append ..)

theorem isPrefixOf_append_cons : part.isPrefixOf (t ++ sep :: s) = part.isPrefixOf t := by
  rw [Bool.eq_iff_iff, List.isPrefixOf_iff_prefix, List.isPrefixOf_iff_prefix,
    prefix_append_cons_iff hpart]

/-- It stands on one side of the character. -/
theorem infix_append_cons_iff : part <:+: t ++ sep :: s ↔ part <:+: t ∨ part <:+: s := by
  induction t with
  | nil =>
    have hhere := prefix_append_cons_iff hpart (t := []) (s := s)
    rw [List.nil_append] at hhere ⊢
    rw [List.infix_cons_iff, hhere, List.prefix_nil, List.infix_nil]
  | cons c t ih =>
    have hhere := prefix_append_cons_iff hpart (t := c :: t) (s := s)
    rw [List.cons_append] at hhere ⊢
    rw [List.infix_cons_iff, hhere, ih, List.infix_cons_iff, or_assoc]

end

section

variable {part t s : Text} (hpart : '\n' ∉ part)

include hpart

variable (hne : part ≠ [])

include hne

theorem cut?_line : cut? part (t ++ '\n' :: s) =
    ((cut? part t).map fun p => (p.1, p.2 ++ '\n' :: s)).or
      ((cut? part s).map fun p => (t ++ '\n' :: p.1, p.2)) := by
  induction t with
  | nil =>
    have hhere := isPrefixOf?_append_cons hpart (t := []) (s := s)
    have hnil : part.isPrefixOf? [] = none := by
      cases part with
      | nil => exact absurd rfl hne
      | cons c part => rfl
    rw [hnil] at hhere
    simp only [List.nil_append] at hhere ⊢
    simp [cut?, hhere, hne]
  | cons c t ih =>
    have hhere := isPrefixOf?_append_cons hpart (t := c :: t) (s := s)
    rw [List.cons_append] at hhere ⊢
    cases hfront : part.isPrefixOf? (c :: t) with
    | some rest =>
      rw [hfront] at hhere
      simp [cut?, hhere, hfront]
    | none =>
      rw [hfront] at hhere
      simp only [cut?, hhere, hfront, Option.map_none, ih]
      cases cut? part t <;> cases cut? part s <;> rfl

theorem cutLast?_line : cutLast? part (t ++ '\n' :: s) =
    ((cutLast? part s).map fun p => (t ++ '\n' :: p.1, p.2)).or
      ((cutLast? part t).map fun p => (p.1, p.2 ++ '\n' :: s)) := by
  induction t with
  | nil =>
    have hhere := isPrefixOf?_append_cons hpart (t := []) (s := s)
    have hnil : part.isPrefixOf? [] = none := by
      cases part with
      | nil => exact absurd rfl hne
      | cons c part => rfl
    rw [hnil] at hhere
    simp only [List.nil_append] at hhere ⊢
    cases hlast : cutLast? part s <;> simp [cutLast?, hlast, hhere, hne]
  | cons c t ih =>
    have hhere := isPrefixOf?_append_cons hpart (t := c :: t) (s := s)
    rw [List.cons_append] at hhere ⊢
    simp only [cutLast?, hhere, ih]
    cases cutLast? part s <;> cases cutLast? part t <;>
      cases part.isPrefixOf? (c :: t) <;> rfl

omit hpart hne in
theorem cut?_eq_none_iff_cutLast? : cut? part t = none ↔ cutLast? part t = none := by
  induction t with
  | nil => simp [cut?, cutLast?]
  | cons c t ih =>
    cases hhere : part.isPrefixOf? (c :: t) with
    | some rest =>
      cases hlast : cutLast? part t <;> simp [cut?, cutLast?, hhere, hlast]
    | none =>
      cases hlast : cutLast? part t <;> simp [cut?, cutLast?, hhere, hlast, ih]

theorem replace_line (new : Text) :
    replace part new (t ++ '\n' :: s) = replace part new t ++ '\n' :: replace part new s := by
  have hskip (skip : Nat) (hlt : skip ≤ t.length) : replaceFrom part new skip (t ++ '\n' :: s) =
      replaceFrom part new skip t ++ '\n' :: replaceFrom part new 0 s := by
    induction t generalizing skip with
    | nil =>
      have hhere := isPrefixOf_append_cons hpart (t := []) (s := s)
      have hnil : part.isPrefixOf [] = false := by
        cases part with
        | nil => exact absurd rfl hne
        | cons c part => rfl
      rw [hnil, List.nil_append] at hhere
      rw [Nat.le_zero.1 hlt]
      simp [replaceFrom, hhere]
    | cons c t ih =>
      cases skip with
      | succ skip =>
        simpa only [List.cons_append, replaceFrom] using ih skip (Nat.le_of_succ_le_succ hlt)
      | zero =>
        have hhere := isPrefixOf_append_cons hpart (t := c :: t) (s := s)
        rw [List.cons_append] at hhere ⊢
        cases hfront : part.isPrefixOf (c :: t) with
        | false =>
          rw [hfront] at hhere
          simp [replaceFrom, hhere, hfront, ih 0 (Nat.zero_le _)]
        | true =>
          rw [hfront] at hhere
          have hlength := (List.isPrefixOf_iff_prefix.1 hfront).length_le
          rw [List.length_cons] at hlength
          simp [replaceFrom, hhere, hfront, ih (part.length - 1) (by omega)]
  exact hskip 0 (Nat.zero_le _)

end

theorem cutLast?_eq {sep s front back : Text} (h : cutLast? sep s = some (front, back)) :
    s = front ++ sep ++ back := by
  induction s generalizing front with
  | nil =>
    unfold cutLast? at h
    split at h
    · next hsep => cases h; rw [hsep]; rfl
    · cases h
  | cons c s ih =>
    unfold cutLast? at h
    split at h
    · next p hcut =>
      cases h
      rw [ih hcut, List.cons_append, List.cons_append]
    · obtain ⟨rest, hrest, heq⟩ := Option.map_eq_some_iff.1 h
      cases heq
      exact isPrefixOf?_eq_some.1 hrest

theorem cut?_of_not_mem {c : Char} {part t : Text} (h : c ∉ t) : cut? (c :: part) t = none := by
  induction t with
  | nil => simp [cut?]
  | cons d t ih =>
    rw [List.mem_cons, not_or] at h
    have hfront : (c :: part).isPrefixOf? (d :: t) = none := by
      change (if c == d then part.isPrefixOf? t else none) = none
      rw [beq_false_of_ne h.1]
      rfl
    simp [cut?, hfront, ih h.2]

theorem cut?_char (sep : Char) {front : Text} (back : Text) (h : sep ∉ front) :
    cut? [sep] (front ++ sep :: back) = some (front, back) := by
  induction front with
  | nil =>
    have hhere : [sep].isPrefixOf? (sep :: back) = some back := isPrefixOf?_eq_some.2 rfl
    rw [List.nil_append, cut?, hhere]
  | cons c front ih =>
    rw [List.mem_cons, not_or] at h
    have hmiss : [sep].isPrefixOf? (c :: (front ++ sep :: back)) = none := by
      change (if sep == c then _ else none) = none
      rw [beq_false_of_ne h.1]
      rfl
    rw [List.cons_append, cut?, hmiss, ih h.2]
    rfl

theorem cutLast?_char (sep : Char) (front : Text) {back : Text} (h : sep ∉ back) :
    cutLast? [sep] (front ++ sep :: back) = some (front, back) := by
  induction front with
  | nil =>
    have hback : cutLast? [sep] back = none := cut?_eq_none_iff_cutLast?.1 (cut?_of_not_mem h)
    have hhere : [sep].isPrefixOf? (sep :: back) = some back := isPrefixOf?_eq_some.2 rfl
    simp [cutLast?, hback, hhere]
  | cons c front ih => simp [cutLast?, ih]

/-- There is nothing to replace in a text that does not hold what is looked for. -/
theorem replace_of_absent {part t : Text} (h : ¬part <:+: t) (new : Text) :
    replace part new t = t := by
  unfold replace
  induction t with
  | nil => rfl
  | cons c t ih =>
    rw [List.infix_cons_iff, not_or] at h
    have hfront : part.isPrefixOf (c :: t) = false := by
      rw [Bool.eq_false_iff, Ne, List.isPrefixOf_iff_prefix]
      exact h.1
    rw [replaceFrom, hfront, ih h.2]
    rfl

theorem replace_of_not_mem {c : Char} {part new t : Text} (h : c ∉ t) :
    replace (c :: part) new t = t :=
  replace_of_absent (fun hpart => h (hpart.subset (List.mem_cons_self ..))) new

theorem consHead_ne_nil (c : Char) (parts : List Text) : consHead c parts ≠ [] := by
  cases parts <;> simp [consHead]

theorem foldr_consHead (t part : Text) (parts : List Text) :
    t.foldr consHead (part :: parts) = (t ++ part) :: parts := by
  induction t with
  | nil => rfl
  | cons c t ih => rw [List.foldr_cons, ih]; rfl

theorem splitWhere_ne_nil (p : Char → Bool) (t : Text) : splitWhere p t ≠ [] := by
  cases t with
  | nil => simp [splitWhere]
  | cons c t =>
    unfold splitWhere
    split
    · simp
    · exact consHead_ne_nil c _

theorem splitWhere_cut {p : Char → Bool} {sep : Char} (hsep : p sep) (t s : Text) :
    splitWhere p (t ++ sep :: s) = splitWhere p t ++ splitWhere p s := by
  induction t with
  | nil => simp [splitWhere, hsep]
  | cons c t ih =>
    simp only [List.cons_append, splitWhere, ih]
    split
    · rfl
    · cases hparts : splitWhere p t with
      | nil => exact absurd hparts (splitWhere_ne_nil p t)
      | cons head more => rfl

theorem split_ne_nil (sep : Char) (t : Text) : split sep t ≠ [] := splitWhere_ne_nil _ t

theorem split_cut (sep : Char) (t s : Text) :
    split sep (t ++ sep :: s) = split sep t ++ split sep s := by
  have hsep : (sep == sep) = true := beq_self_eq_true sep
  exact splitWhere_cut (p := (· == sep)) hsep t s

theorem join_append (sep : Text) {parts more : List Text} (hparts : parts ≠ [])
    (hmore : more ≠ []) :
    join sep (parts ++ more) = join sep parts ++ sep ++ join sep more := by
  induction parts with
  | nil => exact absurd rfl hparts
  | cons part rest ih =>
    cases rest with
    | nil =>
      cases more with
      | nil => exact absurd rfl hmore
      | cons next more => simp [join]
    | cons next rest =>
      have hrest := ih (List.cons_ne_nil next rest)
      simp only [List.cons_append, join] at hrest ⊢
      rw [hrest]
      simp

theorem join_cons_cons (sep part next : Text) (more : List Text) :
    join sep (part :: next :: more) = part ++ sep ++ join sep (next :: more) := rfl

theorem join_consHead (sep : Text) (c : Char) (parts : List Text) :
    join sep (consHead c parts) = c :: join sep parts := by
  match parts with
  | [] => rfl
  | [_] => rfl
  | _ :: _ :: _ => rfl

theorem join_nil_cons (sep : Text) {parts : List Text} (h : parts ≠ []) :
    join sep ([] :: parts) = sep ++ join sep parts := by
  obtain ⟨part, more, rfl⟩ := List.exists_cons_of_ne_nil h
  rfl

theorem prefix_join (sep : Text) (parts : List Text) :
    parts.head?.getD [] <+: join sep parts := by
  match parts with
  | [] => exact List.prefix_refl []
  | [part] => exact List.prefix_refl part
  | part :: _ :: _ => exact ⟨_, (List.append_assoc ..).symm⟩

theorem suffix_join (sep : Text) (parts : List Text) :
    parts.getLast?.getD [] <:+ join sep parts := by
  induction parts with
  | nil => exact List.suffix_refl []
  | cons part more ih =>
    cases more with
    | nil => exact List.suffix_refl part
    | cons next more => exact ih.trans (List.suffix_append ..)

/-- What holds of the parts and of the separator, and goes through append, holds of the parts in a
row. -/
theorem join_of_append {P : Text → Prop} {sep : Text} (hnil : P []) (hsep : P sep)
    (happend : ∀ t s, P t → P s → P (t ++ s)) {parts : List Text} (h : ∀ part ∈ parts, P part) :
    P (join sep parts) := by
  induction parts with
  | nil => exact hnil
  | cons part more ih =>
    obtain ⟨hpart, hmore⟩ := List.forall_mem_cons.1 h
    cases more with
    | nil => exact hpart
    | cons next more => exact happend _ _ (happend _ _ hpart hsep) (ih hmore)

theorem split_of_not_mem {sep : Char} {t : Text} (h : sep ∉ t) : split sep t = [t] := by
  induction t with
  | nil => rfl
  | cons c t ih =>
    rw [List.mem_cons, not_or] at h
    have hne : (c == sep) = false := beq_false_of_ne (Ne.symm h.1)
    unfold split at ih ⊢
    simp [splitWhere, hne, ih h.2, consHead]

end Text

namespace Source

open Text

def documentMarks : List Text := ["\\begin\x7bdocument\x7d", "\\end\x7bdocument\x7d"]

def Unmarked (s : Text) : Prop := ∀ mark ∈ documentMarks, cut? mark s = none

def WholeLines (s : Text) : Prop := s = [] ∨ ∃ t, s = t ++ ['\n']

def commentLine (blanks note : Text) : Text := blanks ++ '%' :: note ++ ['\n']

def blankLine (blanks : Text) : Text := blanks ++ ['\n']

theorem mark_lineless {mark : Text} (h : mark ∈ documentMarks) : '\n' ∉ mark ∧ mark ≠ [] := by
  simp only [documentMarks, List.mem_cons, List.not_mem_nil, or_false] at h
  rcases h with rfl | rfl <;> simp

/-- What is cut out of whole lines behind a mark is whole lines. -/
theorem WholeLines.of_suffix {s front back : Text} (h : WholeLines s) (heq : s = front ++ back) :
    WholeLines back := by
  rcases h with rfl | ⟨t, rfl⟩
  · exact .inl (List.append_eq_nil_iff.1 heq.symm).2
  · rcases List.eq_nil_or_concat back with rfl | ⟨more, c, rfl⟩
    · exact .inl rfl
    · right
      rw [List.concat_eq_append, ← List.append_assoc] at heq
      obtain ⟨_, hlast⟩ := List.append_inj' heq rfl
      exact ⟨more, by rw [List.concat_eq_append, ← hlast]⟩

section

variable {mark u s : Text} (hmark : mark ∈ documentMarks) (hu : WholeLines u)

include hmark hu

theorem cut?_lines : cut? mark (u ++ s) =
    ((cut? mark u).map fun p => (p.1, p.2 ++ s)).or
      ((cut? mark s).map fun p => (u ++ p.1, p.2)) := by
  obtain ⟨hline, hne⟩ := mark_lineless hmark
  rcases hu with rfl | ⟨t, rfl⟩
  · simp [cut?, hne]
  · have hend := cut?_line hline hne (t := t) (s := [])
    have hboth := cut?_line hline hne (t := t) (s := s)
    simp only [List.append_assoc, List.cons_append, List.nil_append] at hboth ⊢
    rw [hboth, hend]
    cases cut? mark t <;> cases cut? mark s <;> simp [cut?, hne]

theorem cutLast?_lines : cutLast? mark (u ++ s) =
    ((cutLast? mark s).map fun p => (u ++ p.1, p.2)).or
      ((cutLast? mark u).map fun p => (p.1, p.2 ++ s)) := by
  obtain ⟨hline, hne⟩ := mark_lineless hmark
  rcases hu with rfl | ⟨t, rfl⟩
  · cases hlast : cutLast? mark s <;> simp [cutLast?, hne, hlast]
  · have hend := cutLast?_line hline hne (t := t) (s := [])
    have hboth := cutLast?_line hline hne (t := t) (s := s)
    simp only [List.append_assoc, List.cons_append, List.nil_append] at hboth ⊢
    rw [hboth, hend]
    cases cutLast? mark t <;> cases cutLast? mark s <;> simp [cutLast?, hne]

end

/-- Lines without marks that are put between others are dropped with what is outside of the
document, or they stand in its body as they are. -/
theorem documentBody_insert {before : Text} (hbefore : WholeLines before) (after : Text) :
    (∀ lines, WholeLines lines → Unmarked lines →
        documentBody (before ++ (lines ++ after)) = documentBody (before ++ after)) ∨
      ∃ u v, WholeLines u ∧ ∀ lines, WholeLines lines → Unmarked lines →
        documentBody (before ++ (lines ++ after)) = u ++ (lines ++ v) := by
  have hopen : ("\\begin\x7bdocument\x7d" : Text) ∈ documentMarks := List.mem_cons_self ..
  have hclose : ("\\end\x7bdocument\x7d" : Text) ∈ documentMarks := by simp [documentMarks]
  generalize hopening : ("\\begin\x7bdocument\x7d" : Text) = opening at hopen
  generalize hclosing : ("\\end\x7bdocument\x7d" : Text) = closing at hclose
  have hbody (s : Text) : documentBody s =
      (((cut? opening s).bind fun p => cutLast? closing p.2).map Prod.fst).getD s := by
    rw [← hopening, ← hclosing, documentBody]
    cases cut? "\\begin\x7bdocument\x7d" s with
    | none => rfl
    | some p =>
      rw [Option.bind_some]
      dsimp only
      cases cutLast? "\\end\x7bdocument\x7d" p.2 <;> rfl
  have hnone {lines : Text} (h : Unmarked lines) {mark : Text} (hmark : mark ∈ documentMarks) :
      cut? mark lines = none ∧ cutLast? mark lines = none :=
    ⟨h mark hmark, cut?_eq_none_iff_cutLast?.1 (h mark hmark)⟩
  have hcut (lines : Text) (hlines : WholeLines lines) (h : Unmarked lines) :
      cut? opening (before ++ (lines ++ after)) =
        ((cut? opening before).map fun p => (p.1, p.2 ++ (lines ++ after))).or
          ((cut? opening after).map fun p => (before ++ (lines ++ p.1), p.2)) := by
    rw [cut?_lines hopen hbefore, cut?_lines hopen hlines, (hnone h hopen).1]
    cases cut? opening after <;> simp
  have hlast {inside : Text} (hinside : WholeLines inside) (lines : Text)
      (hlines : WholeLines lines) (h : Unmarked lines) :
      cutLast? closing (inside ++ (lines ++ after)) =
        ((cutLast? closing after).map fun p => (inside ++ (lines ++ p.1), p.2)).or
          ((cutLast? closing inside).map fun p => (p.1, p.2 ++ (lines ++ after))) := by
    rw [cutLast?_lines hclose hinside, cutLast?_lines hclose hlines, (hnone h hclose).2]
    cases cutLast? closing after <;> simp
  have hempty : WholeLines [] ∧ Unmarked [] := by
    refine ⟨.inl rfl, fun mark hmark => ?_⟩
    simp [cut?, (mark_lineless hmark).2]
  have hplain := hcut [] hempty.1 hempty.2
  rw [List.nil_append] at hplain
  cases hfront : cut? opening before with
  | some p =>
    have hwhole : before = p.1 ++ opening ++ p.2 := cut?_eq hfront
    have hinside : WholeLines p.2 := hbefore.of_suffix hwhole
    have hplain' := hlast hinside [] hempty.1 hempty.2
    rw [List.nil_append] at hplain'
    cases hend : cutLast? closing after with
    | some q =>
      refine .inr ⟨p.2, q.1, hinside, fun lines hlines h => ?_⟩
      simp [hbody, hcut lines hlines h, hfront, hlast hinside lines hlines h, hend]
    | none =>
      cases hmiddle : cutLast? closing p.2 with
      | some q =>
        refine .inl fun lines hlines h => ?_
        simp [hbody, hcut lines hlines h, hplain, hfront, hlast hinside lines hlines h, hplain',
          hend, hmiddle]
      | none =>
        refine .inr ⟨before, after, hbefore, fun lines hlines h => ?_⟩
        simp [hbody, hcut lines hlines h, hfront, hlast hinside lines hlines h, hend, hmiddle]
  | none =>
    cases hback : cut? opening after with
    | none =>
      refine .inr ⟨before, after, hbefore, fun lines hlines h => ?_⟩
      simp [hbody, hcut lines hlines h, hfront, hback]
    | some p =>
      cases hend : cutLast? closing p.2 with
      | some q =>
        refine .inl fun lines hlines h => ?_
        simp [hbody, hcut lines hlines h, hplain, hfront, hback, hend]
      | none =>
        refine .inr ⟨before, after, hbefore, fun lines hlines h => ?_⟩
        simp [hbody, hcut lines hlines h, hfront, hback, hend]

def tidy (s : Text) : Text :=
  renameEnvironment "tabular" "rtabular" <|
    renameEnvironment "figure*" "figurefreeze" <|
      renameEnvironment "figure" "figurefreeze" <| dropComments s

theorem clean_eq_tidy (s : Text) : clean s = tidy (documentBody s) := rfl

theorem dropComments_line (t s : Text) :
    dropComments (t ++ '\n' :: s) = dropComments t ++ '\n' :: dropComments s := by
  unfold dropComments
  rw [split_cut, List.map_append,
    join_append _ (by simpa using split_ne_nil '\n' t) (by simpa using split_ne_nil '\n' s)]
  simp

def renamedNames : List Text := ["tabular", "figure*", "figure"]

theorem renameEnvironment_line {old : Text} (hold : old ∈ renamedNames) (new t s : Text) :
    renameEnvironment old new (t ++ '\n' :: s) =
      renameEnvironment old new t ++ '\n' :: renameEnvironment old new s := by
  have hmarks : ('\n' ∉ opener old ∧ opener old ≠ []) ∧ '\n' ∉ closer old ∧ closer old ≠ [] := by
    simp only [renamedNames, List.mem_cons, List.not_mem_nil, or_false] at hold
    rcases hold with rfl | rfl | rfl <;> simp [opener, closer]
  unfold renameEnvironment
  rw [replace_line hmarks.1.1 hmarks.1.2, replace_line hmarks.2.1 hmarks.2.2]

/-- Lines are tidied one by one. -/
theorem tidy_line (t s : Text) : tidy (t ++ '\n' :: s) = tidy t ++ '\n' :: tidy s := by
  unfold tidy
  rw [dropComments_line, renameEnvironment_line (by simp [renamedNames]),
    renameEnvironment_line (by simp [renamedNames]),
    renameEnvironment_line (by simp [renamedNames])]

theorem tidy_nil : tidy [] = [] := by decide

theorem WholeLines.tidy {u : Text} (h : WholeLines u) : WholeLines (tidy u) := by
  rcases h with rfl | ⟨t, rfl⟩
  · exact .inl tidy_nil
  · exact .inr ⟨Source.tidy t, by rw [tidy_line, tidy_nil]⟩

theorem tidy_lines {u : Text} (h : WholeLines u) (s : Text) : tidy (u ++ s) = tidy u ++ tidy s := by
  rcases h with rfl | ⟨t, rfl⟩
  · rw [tidy_nil, List.nil_append, List.nil_append]
  · have hline := tidy_line t []
    rw [List.append_assoc, List.singleton_append, tidy_line, hline, tidy_nil, List.append_assoc]
    rfl

theorem beforeComment_blanks {blanks : Text} (h : ∀ c ∈ blanks, c.isBlank) (rest : Text) :
    beforeComment false (blanks ++ rest) = blanks ++ beforeComment false rest := by
  induction blanks with
  | nil => rfl
  | cons c blanks ih =>
    rw [List.forall_mem_cons] at h
    have hpercent : c ≠ '%' := by
      rintro rfl
      exact absurd h.1 (by decide)
    have hbackslash : (c == '\\') = false := by
      apply beq_false_of_ne
      rintro rfl
      exact absurd h.1 (by decide)
    simp [beforeComment, hpercent, hbackslash, ih h.2]

theorem renameEnvironment_of_not_mem {t : Text} (h : '\\' ∉ t) (old new : Text) :
    renameEnvironment old new t = t := by
  have hopener : opener old = '\\' :: (opener old).tail := by simp [opener]
  have hcloser : closer old = '\\' :: (closer old).tail := by simp [closer]
  unfold renameEnvironment
  rw [hopener, hcloser, replace_of_not_mem h, replace_of_not_mem h]

/-- A line of blanks is left as it is, with or without a comment behind the blanks. -/
theorem tidy_blanks {blanks : Text} (rest : Text) (hblanks : ∀ c ∈ blanks, c.isBlank)
    (hrest : beforeComment false rest = []) (hline : '\n' ∉ blanks ++ rest) :
    tidy (blanks ++ rest) = blanks := by
  have hbackslash : '\\' ∉ blanks := fun h => absurd (hblanks _ h) (by decide)
  unfold tidy dropComments
  rw [split_of_not_mem hline, List.map_singleton, beforeComment_blanks hblanks, hrest,
    List.append_nil, join]
  simp only [renameEnvironment_of_not_mem hbackslash]

theorem skipComments_blanks {blanks : Text} (h : ∀ c ∈ blanks, c.isBlank) (s : Text) :
    skipComments (blanks ++ s) = skipComments s := by
  have htrim : trimStart (blanks ++ s) = trimStart s := List.dropWhile_append_of_pos h
  rw [skipComments.eq_def (blanks ++ s), skipComments.eq_def s, htrim]

theorem skipComments_trimStart (s : Text) : skipComments (trimStart s) = skipComments s := by
  have hsplit : s.takeWhile Char.isBlank ++ trimStart s = s := List.takeWhile_append_dropWhile
  have hblank : ∀ c ∈ s.takeWhile Char.isBlank, c.isBlank := List.all_eq_true.1 List.all_takeWhile
  have hread := skipComments_blanks hblank (trimStart s)
  rw [hsplit] at hread
  exact hread.symm

/-- A character that is neither blank nor a percent sign begins no comment. -/
theorem skipComments_cons {c : Char} (hblank : ¬c.isBlank) (hpercent : c ≠ '%') (s : Text) :
    skipComments (c :: s) = c :: s := by
  have hstart : trimStart (c :: s) = c :: s := List.dropWhile_cons_of_neg hblank
  rw [skipComments.eq_def]
  split
  · next hs => rw [hstart] at hs; cases hs
  · next hs =>
    rw [hstart] at hs
    cases hs
    exact if_neg hpercent

/-- Blanks in front of a text are not read. -/
theorem readBlocks_blanks {blanks : Text} (h : ∀ c ∈ blanks, c.isBlank) (s : Text) :
    readBlocks (blanks ++ s) = readBlocks s := by
  have hnext : Piece.next? (blanks ++ s) = Piece.next? s := by
    unfold Piece.next?
    rw [skipComments_blanks h]
  rw [readBlocks.eq_def (blanks ++ s), readBlocks.eq_def s, hnext]

theorem readBlocks_newline (s : Text) : readBlocks ('\n' :: s) = readBlocks s := by
  have hblank : ∀ c ∈ ['\n'], c.isBlank := by simp [Char.isBlank]
  exact readBlocks_blanks hblank s

def StandsAlone (u : Text) : Prop := ∀ s, readBlocks (u ++ s) = readBlocks u ++ readBlocks s

theorem readBlocks_nil : readBlocks [] = [] := by
  have hnext : Piece.next? [] = none := by simp [Piece.next?, skipComments, trimStart]
  rw [readBlocks.eq_def, hnext]

theorem unmarked_of_not_mem {s : Text} (h : '\\' ∉ s) : Unmarked s := by
  intro mark hmark
  have hhead : ∃ more, mark = '\\' :: more := by
    simp only [documentMarks, List.mem_cons, List.not_mem_nil, or_false] at hmark
    rcases hmark with rfl | rfl
    · exact ⟨"begin\x7bdocument\x7d".toList, by simp⟩
    · exact ⟨"end\x7bdocument\x7d".toList, by simp⟩
  obtain ⟨more, rfl⟩ := hhead
  exact cut?_of_not_mem h

/-- A comment line is read as a blank line. It is dropped with what is outside of the document, or
it leaves its blanks and the end of its line in the text that is read; where the text in front of it
is read by itself, nothing is left of it in the blocks of the page. -/
theorem comment_line_is_blank_line {before blanks note : Text} (after : Text)
    (hbefore : before = [] ∨ ∃ t, before = t ++ ['\n'])
    (hblanks : ∀ c ∈ blanks, c.isBlank ∧ c ≠ '\n') (hnote : '\n' ∉ note)
    (hmarks : Unmarked (commentLine blanks note)) :
    readPage (before ++ (commentLine blanks note ++ after)) =
        readPage (before ++ (blankLine blanks ++ after)) ∧
      (clean (before ++ (commentLine blanks note ++ after)) = clean (before ++ after) ∨
        ∃ u v, WholeLines u ∧ clean (before ++ after) = u ++ v ∧
          clean (before ++ (commentLine blanks note ++ after)) = u ++ (blankLine blanks ++ v) ∧
          (StandsAlone u → readPage (before ++ (commentLine blanks note ++ after)) =
            readPage (before ++ after))) := by
  have hblank (c : Char) (hc : c ∈ blanks) : c.isBlank := (hblanks c hc).1
  have hline : '\n' ∉ blanks := fun h => (hblanks _ h).2 rfl
  have hcomment : WholeLines (commentLine blanks note) := .inr ⟨blanks ++ '%' :: note, rfl⟩
  have hplain : WholeLines (blankLine blanks) := .inr ⟨blanks, rfl⟩
  have hunmarked : Unmarked (blankLine blanks) := by
    apply unmarked_of_not_mem
    intro h
    rcases List.mem_append.1 h with h | h
    · exact absurd (hblank _ h) (by decide)
    · simp at h
  have hnone : WholeLines [] ∧ Unmarked [] := ⟨.inl rfl, unmarked_of_not_mem (by simp)⟩
  have htidy : tidy (commentLine blanks note) = blankLine blanks := by
    have h := tidy_blanks ('%' :: note) hblank (by simp [beforeComment])
      (by simp [hline, hnote])
    have hcut := tidy_line (blanks ++ '%' :: note) []
    rw [h, tidy_nil] at hcut
    exact hcut
  have htidy' : tidy (blankLine blanks) = blankLine blanks := by
    have h := tidy_blanks [] hblank rfl (by simpa using hline)
    have hcut := tidy_line blanks []
    rw [List.append_nil] at h
    rw [h, tidy_nil] at hcut
    exact hcut
  have hbefore : WholeLines before := hbefore
  unfold readPage
  simp only [clean_eq_tidy]
  rcases documentBody_insert hbefore after with hdropped | ⟨u, v, hu, hkept⟩
  · rw [hdropped _ hcomment hmarks, hdropped _ hplain hunmarked]
    exact ⟨rfl, .inl rfl⟩
  · have hbody := hkept [] hnone.1 hnone.2
    rw [List.nil_append, List.nil_append] at hbody
    rw [hkept _ hcomment hmarks, hkept _ hplain hunmarked, hbody, tidy_lines hu, tidy_lines hu,
      tidy_lines hu, tidy_lines hcomment, tidy_lines hplain, htidy, htidy']
    refine ⟨rfl, .inr ⟨tidy u, tidy v, hu.tidy, rfl, rfl, fun halone => ?_⟩⟩
    have hread : readBlocks (blankLine blanks ++ tidy v) = readBlocks (tidy v) :=
      readBlocks_blanks (fun c hc => by
        rcases List.mem_append.1 hc with hc | hc
        · exact hblank c hc
        · rw [List.mem_singleton.1 hc]
          decide) _
    rw [halone, halone, hread]

/-- A comment line in a paragraph is read as a blank line, and makes two paragraphs of one. -/
theorem comment_line_in_paragraph :
    Unmarked (commentLine [] " note") ∧
      readPage ("a\n" ++ (commentLine [] " note" ++ "b\n")) =
        readPage ("a\n" ++ (blankLine [] ++ "b\n")) ∧
      (readPage ("a\n" ++ (commentLine [] " note" ++ "b\n"))).length = 2 ∧
      (readPage "a\nb\n").length = 1 := by
  have hmarks : Unmarked (commentLine [] " note") := unmarked_of_not_mem (by decide +kernel)
  have hblank := (@comment_line_is_blank_line "a\n" [] " note" "b\n"
    (.inr ⟨"a", by decide +kernel⟩) (by simp) (by decide +kernel) hmarks).1
  exact ⟨hmarks, hblank, by decide +kernel, by decide +kernel⟩

end Source

end TexCatalog
