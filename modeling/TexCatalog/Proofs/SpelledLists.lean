import TexCatalog.Proofs.SpelledLines

/-!
# Lists from their spelling

The body of a list is searched character by character, for the end of its environment and then for
its items, and environments inside it are passed. Whatever stands in an item is passed as well: its
running text holds no command that a list is made of, and its own lists are closed where they end.
-/

namespace TexCatalog

namespace Source

open Text

/-! ### Running text in a list -/

/-- No command that lists are made of begins within `x`, if `r` follows. -/
def Silent : Text → Text → Prop
  | [], _ => True
  | c :: x, r => (∀ mark ∈ listMarks, ¬mark <+: c :: (x ++ r)) ∧ Silent x r

theorem silent_append {x y r : Text} : Silent (x ++ y) r ↔ Silent x (y ++ r) ∧ Silent y r := by
  induction x with
  | nil => simp [Silent]
  | cons c x ih => simp [Silent, ih, and_assoc]

theorem listMarks_cons {mark : Text} (h : mark ∈ listMarks) :
    ∃ d more, mark = '\\' :: d :: more ∧ d.isAlpha ∧ (d :: more).all Char.isAlpha := by
  simp only [listMarks, List.mem_cons, List.not_mem_nil, or_false] at h
  rcases h with rfl | rfl | rfl <;>
    exact ⟨_, _, ofString_eq _, by rfl, by rfl⟩

theorem silent_of_not_mem {x : Text} (h : '\\' ∉ x) (r : Text) : Silent x r := by
  induction x with
  | nil => trivial
  | cons c x ih =>
    rw [List.mem_cons, not_or] at h
    refine ⟨fun mark hmark hprefix => ?_, ih h.2⟩
    obtain ⟨d, more, rfl, _⟩ := listMarks_cons hmark
    exact h.1 (List.cons_prefix_cons.1 hprefix).1

theorem silent_of_markless {t : Text} (h : Markless t) {c : Char} (hc : c ∈ [('$' : Char), '}'])
    (r : Text) : Silent t (c :: r) := by
  induction t with
  | nil => trivial
  | cons d t ih =>
    refine ⟨fun mark hmark hprefix => ?_,
      ih fun mark hmark => (not_occursIn_cons (h mark hmark)).2⟩
    have hnot : c ∉ mark := by
      intro hmem
      obtain ⟨e, more, rfl, _, hletters⟩ := listMarks_cons hmark
      have hother : c ≠ '\\' ∧ ¬c.isAlpha := by
        simp only [List.mem_cons, List.not_mem_nil, or_false] at hc
        rcases hc with rfl | rfl <;> decide
      rcases List.mem_cons.1 hmem with heq | hmem
      · exact hother.1 heq
      · exact hother.2 (List.all_eq_true.1 hletters c hmem)
    rw [← List.isPrefixOf_iff_prefix, ← List.cons_append, isPrefixOf_append_cons hnot,
      List.isPrefixOf_iff_prefix] at hprefix
    exact (not_occursIn_cons (h mark hmark)).1 hprefix

theorem silent_lineBreak {r : Text} (h : ∀ c ∈ r.head?, ¬c.isAlpha) : Silent ['\\', '\\'] r := by
  refine ⟨fun mark hmark hprefix => ?_, fun mark hmark hprefix => ?_, trivial⟩
  · obtain ⟨d, more, rfl, hletter, _⟩ := listMarks_cons hmark
    have hsecond := (List.cons_prefix_cons.1 (List.cons_prefix_cons.1 hprefix).2).1
    rw [hsecond] at hletter
    exact absurd hletter (by decide)
  · obtain ⟨d, more, rfl, hletter, _⟩ := listMarks_cons hmark
    have hsecond := (List.cons_prefix_cons.1 hprefix).2
    cases r with
    | nil => simp at hsecond
    | cons c r =>
      rw [List.nil_append] at hsecond
      obtain ⟨rfl, _⟩ := List.cons_prefix_cons.1 hsecond
      exact h _ rfl hletter

def itemCommands : List Text :=
  inlineCommands ++ [("section" : Text), "subsection", "subsubsection", "label"]

theorem silent_command {name argument : Text} (hname : name ∈ itemCommands) {r : Text}
    (hargument : Silent argument ('}' :: r)) : Silent (spellCommand name argument) r := by
  have hspec : '\\' ∉ name ∧ ∀ mark ∈ listMarks, ¬mark.isPrefixOf ('\\' :: name) := by
    revert name
    decide_cbv
  have hcommand : spellCommand name argument =
      ['\\'] ++ (name ++ ['{']) ++ (argument ++ ['}']) := by
    simp [spellCommand]
  rw [hcommand]
  simp only [silent_append]
  refine ⟨⟨⟨fun mark hmark hprefix => ?_, trivial⟩, silent_of_not_mem hspec.1 _,
    silent_of_not_mem (by simp) _⟩, hargument, silent_of_not_mem (by simp) _⟩
  have hbraces : ∀ mark ∈ listMarks, '{' ∉ mark := by simp [listMarks]
  have hfront : '\\' :: ([] ++ (name ++ ['{'] ++ (argument ++ ['}'] ++ r))) =
      ('\\' :: name) ++ '{' :: (argument ++ ['}'] ++ r) := by
    simp
  rw [hfront, ← List.isPrefixOf_iff_prefix, isPrefixOf_append_cons (hbraces mark hmark)] at hprefix
  exact hspec.2 mark hmark hprefix

theorem inlineCommands_subset {name : Text} (h : name ∈ inlineCommands) : name ∈ itemCommands :=
  List.mem_append_left _ h

theorem Place.Admits.silent {p : Place} {c : Char} {t : Text} (h : p.Admits c t) (hp : p.listed)
    (hc : c ∈ [('$' : Char), '}']) (r : Text) : Silent t (c :: r) :=
  silent_of_markless (h.markless hp) hc r

section

variable {p : Place} {node : Inline} {more nodes : List Inline}

/-- In a list no word stands behind a line break. -/
theorem CanonicalInlines.no_letter (h : CanonicalInlines p more) (hp : p.listed)
    (hmeets : p.Meets .lineBreak more) {r : Text} (hr : ∀ c ∈ r.head?, ¬c.isAlpha) :
    ∀ c ∈ (spellInlines more ++ r).head?, ¬c.isAlpha := by
  cases more with
  | nil =>
    rw [spellInlines]
    exact hr
  | cons next rest =>
    obtain ⟨c, s, hspell, hstarts⟩ := h.starts
    have hmeet := hmeets next rfl
    have hmark {c : Char} (h : c ∈ ("\\$" : Text)) : ¬c.isAlpha := by
      simp at h
      rcases h with rfl | rfl <;> decide
    rw [spellInlines, hspell]
    rintro _ ⟨rfl⟩
    cases next with
    | text => exact absurd hp hmeet
    | space | softBreak => exact not_isAlpha_of_isBlank hstarts
    | _ => exact hmark hstarts

theorem Place.Leaf.silent (h : p.Leaf node) (hp : p.listed) {r : Text}
    (hr : node = .lineBreak → ∀ c ∈ r.head?, ¬c.isAlpha) : Silent (spellInline node) r := by
  cases h with
  | word hword =>
    rw [spellInline]
    exact silent_of_not_mem (fun hmem => (hword.2.1 _ hmem).2 (by simp)) r
  | space | softBreak =>
    rw [spellInline]
    exact silent_of_not_mem (by simp) r
  | lineBreak =>
    rw [spellInline]
    exact silent_lineBreak (hr rfl)
  | math _ _ _ hadmits =>
    rw [spellInline, ← List.singleton_append, silent_append, silent_append]
    exact ⟨silent_of_not_mem (by simp) _, hadmits.silent hp (by simp) _,
      silent_of_not_mem (by simp) _⟩
  | code _ hadmits =>
    rw [spellInline]
    exact silent_command (by simp [itemCommands, inlineCommands]) (hadmits.silent hp (by simp) _)

theorem CanonicalInlines.silent (h : CanonicalInlines p nodes) (hp : p.listed) {r : Text}
    (hr : ∀ c ∈ r.head?, ¬c.isAlpha) : Silent (spellInlines nodes) r := by
  induction h generalizing r with
  | nil =>
    rw [spellInlines]
    trivial
  | leaf hleaf hmeets hmore ih =>
    rw [spellInlines, silent_append]
    refine ⟨hleaf.silent hp ?_, ih hp hr⟩
    rintro rfl
    exact hmore.no_letter hp hmeets hr
  | styled style _ _ _ ihcontent ih =>
    rw [spellInlines, spellInline, silent_append]
    refine ⟨silent_command (inlineCommands_subset (styleCommand_mem style)) ?_, ih hp hr⟩
    exact ihcontent hp (by rintro _ ⟨rfl⟩; decide)
  | link _ hadmits _ _ _ ihcontent ih =>
    rw [spellInlines, spellInline, silent_append, silent_append, ← List.singleton_append,
      silent_append, silent_append]
    refine ⟨⟨silent_command (by simp [itemCommands, inlineCommands])
      (hadmits.silent hp (by simp) _), ?_, ?_, ?_⟩, ih hp hr⟩
    · exact silent_of_not_mem (by simp) _
    · exact ihcontent hp (by rintro _ ⟨rfl⟩; decide)
    · exact silent_of_not_mem (by simp) _

end

/-! ### The end of a list -/

def listNames : List Text := ["itemize", "enumerate"]

theorem listNames_spec {name : Text} (h : name ∈ listNames) :
    name ≠ [] ∧ ∀ c ∈ name, isNameChar c := by
  rw [listNames, List.mem_cons, List.mem_singleton] at h
  rcases h with rfl | rfl <;> simp [isNameChar]

/-- The search for the end of a list goes through `x`, if `r` follows. -/
def PassesEnds (x r : Text) : Prop :=
  ∀ name ∈ listNames, ∀ depth,
    closeEnvironment name depth (x ++ r) = (closeEnvironment name depth r).map (onto x)

theorem closeEnvironment_cons {name s : Text} {c : Char} (hclose : ¬closer name <+: c :: s)
    (hopen : ¬opener name <+: c :: s) (depth : Nat) :
    closeEnvironment name depth (c :: s) = (closeEnvironment name depth s).map (onto [c]) := by
  rw [closeEnvironment, isPrefixOf?_eq_none.2 hclose]
  dsimp only
  rw [if_neg fun h => hopen (List.isPrefixOf_iff_prefix.1 h)]

namespace PassesEnds

variable {x y r : Text}

theorem append (hx : PassesEnds x (y ++ r)) (hy : PassesEnds y r) : PassesEnds (x ++ y) r := by
  intro name hname depth
  rw [List.append_assoc, hx name hname, hy name hname, map_onto_onto]

theorem of_silent (h : Silent x r) : PassesEnds x r := by
  induction x with
  | nil => exact fun _ _ _ => (map_onto_nil _).symm
  | cons c x ih =>
    intro name hname depth
    have hclose : ¬closer name <+: c :: (x ++ r) := fun hp =>
      h.1 "\\end" (by simp [listMarks]) (.trans ⟨"\x7b" ++ name ++ "\x7d", by simp [closer]⟩ hp)
    have hopen : ¬opener name <+: c :: (x ++ r) := fun hp =>
      h.1 "\\begin" (by simp [listMarks]) (.trans ⟨"\x7b" ++ name ++ "\x7d", by simp [opener]⟩ hp)
    rw [List.cons_append, closeEnvironment_cons hclose hopen, ih h.2 name hname, map_onto_onto]
    rfl

theorem of_not_mem (h : '\\' ∉ x) : PassesEnds x r := of_silent (silent_of_not_mem h r)

end PassesEnds

section

variable {name other s : Text} (hname : name ∈ listNames) (depth : Nat)

include hname

theorem closeEnvironment_opener : closeEnvironment name depth (opener name ++ s) =
    (closeEnvironment name (depth + 1) s).map (onto (opener name)) := by
  have hopen : opener name <+: opener name ++ s := List.prefix_append ..
  have hnone : (closer name).isPrefixOf? (opener name ++ s) = none :=
    isPrefixOf?_eq_none.2 fun hclose => not_opener_of_closer hclose hopen
  rw [← List.isPrefixOf_iff_prefix] at hopen
  obtain ⟨more, hmore, hback⟩ := opener_isMark (listNames_spec hname).2
  have hpass := PassesEnds.of_not_mem hback name hname (depth + 1) (r := s)
  rw [hmore, List.cons_append] at hnone hopen
  rw [hmore, List.cons_append, closeEnvironment, hnone]
  dsimp only
  rw [hmore, if_pos hopen, hpass, map_onto_onto]
  rfl

theorem closeEnvironment_closer : closeEnvironment name (depth + 1) (closer name ++ s) =
    (closeEnvironment name depth s).map (onto (closer name)) := by
  have hsome : (closer name).isPrefixOf? (closer name ++ s) = some s := isPrefixOf?_eq_some.2 rfl
  obtain ⟨more, hmore, hback⟩ := closer_isMark (listNames_spec hname).2
  have hpass := PassesEnds.of_not_mem hback name hname depth (r := s)
  rw [hmore, List.cons_append] at hsome
  rw [hmore, List.cons_append, closeEnvironment, hmore, hsome]
  dsimp only
  rw [hpass, map_onto_onto]
  rfl

theorem closeEnvironment_end : closeEnvironment name 0 (closer name ++ s) = some ([], s) := by
  have hsome : (closer name).isPrefixOf? (closer name ++ s) = some s := isPrefixOf?_eq_some.2 rfl
  obtain ⟨more, hmore, _⟩ := closer_isMark (listNames_spec hname).2
  rw [hmore, List.cons_append] at hsome
  rw [hmore, List.cons_append, closeEnvironment, hmore, hsome]

/-- The marks of a list are no marks of a list of the other kind. -/
theorem closeEnvironment_other (hother : other ∈ listNames) (hne : other ≠ name) {mark : Text}
    (hmark : mark ∈ [opener other, closer other]) : closeEnvironment name depth (mark ++ s) =
      (closeEnvironment name depth s).map (onto mark) := by
  have hapart : ∀ name ∈ listNames, ∀ other ∈ listNames, other ≠ name →
      ∀ mark ∈ [opener other, closer other], ∀ own ∈ [opener name, closer name],
        ¬own.isPrefixOf mark ∧ ¬mark.isPrefixOf own := by
    decide_cbv
  have hnot {own : Text} (hown : own ∈ [opener name, closer name]) : ¬own <+: mark ++ s := by
    intro hprefix
    have hboth := hapart name hname other hother hne mark hmark own hown
    rw [List.isPrefixOf_iff_prefix, List.isPrefixOf_iff_prefix] at hboth
    rcases List.prefix_or_prefix_of_prefix hprefix (List.prefix_append mark s) with h | h
    · exact hboth.1 h
    · exact hboth.2 h
  have hform : IsMark mark := by
    simp only [List.mem_cons, List.not_mem_nil, or_false] at hmark
    rcases hmark with rfl | rfl
    · exact opener_isMark (listNames_spec hother).2
    · exact closer_isMark (listNames_spec hother).2
  obtain ⟨more, rfl, hback⟩ := hform
  have hpass := PassesEnds.of_not_mem hback name hname depth (r := s)
  have hfirst := closeEnvironment_cons (hnot (List.mem_cons_of_mem _ (List.mem_cons_self ..)))
    (hnot (List.mem_cons_self ..)) depth
  exact hfirst.trans ((congrArg _ hpass).trans (map_onto_onto ..))

end

/-- A list in a list is closed where it ends. -/
theorem PassesEnds.enclose {other body r : Text} (hother : other ∈ listNames)
    (hbody : PassesEnds body (closer other ++ r)) : PassesEnds (enclose other body) r := by
  intro name hname depth
  rw [Source.enclose, List.append_assoc, List.append_assoc]
  by_cases heq : other = name
  · rw [heq] at hbody ⊢
    rw [closeEnvironment_opener hname, hbody name hname, closeEnvironment_closer hname,
      map_onto_onto, map_onto_onto, List.append_assoc]
  · rw [closeEnvironment_other hname depth hother heq (by simp), hbody name hname,
      closeEnvironment_other hname depth hother heq (by simp), map_onto_onto, map_onto_onto,
      List.append_assoc]

theorem environment?_list {name body r : Text} (hname : name ∈ listNames)
    (hbody : PassesEnds body (closer name ++ r)) :
    environment? (enclose name body ++ r) =
      some ({ name, body, source := enclose name body }, r) := by
  obtain ⟨hne, hchars⟩ := listNames_spec hname
  apply environment?_of_close hchars hne
  rw [hbody name hname, closeEnvironment_end hname]
  simp [onto]

/-! ### The items of a list -/

/-- The search for the next item goes through `x`, if `r` follows. -/
def PassesItems (x r : Text) : Prop := itemParts 0 (x ++ r) = x.foldr consHead (itemParts 0 r)

namespace PassesItems

variable {x y r : Text}

theorem append (hx : PassesItems x (y ++ r)) (hy : PassesItems y r) : PassesItems (x ++ y) r := by
  unfold PassesItems at hx hy ⊢
  rw [List.append_assoc, hx, hy, List.foldr_append]

theorem of_silent (h : Silent x r) : PassesItems x r := by
  unfold PassesItems
  induction x with
  | nil => rfl
  | cons c x ih =>
    have hnone {mark : Text} (hmark : mark ∈ listMarks) :
        mark.isPrefixOf? (c :: (x ++ r)) = none :=
      isPrefixOf?_eq_none.2 (h.1 mark hmark)
    have henvironment : environment? (c :: (x ++ r)) = none :=
      environment?_eq_none (hnone (by simp [listMarks]))
    have hitem : startsItem (c :: (x ++ r)) = false := by
      rw [startsItem, hnone (by simp [listMarks])]
    rw [List.cons_append, itemParts, henvironment]
    dsimp only
    rw [hitem, ih h.2]
    rfl

theorem of_not_mem (h : '\\' ∉ x) : PassesItems x r := of_silent (silent_of_not_mem h r)

theorem skip (x r : Text) : itemParts x.length (x ++ r) = x.foldr consHead (itemParts 0 r) := by
  induction x with
  | nil => rfl
  | cons c x ih => rw [List.length_cons, List.cons_append, itemParts, ih, List.foldr_cons]

/-- A list in a list is passed as a whole. -/
theorem enclose {name body : Text} (hname : name ∈ listNames)
    (hbody : PassesEnds body (closer name ++ r)) : PassesItems (enclose name body) r := by
  have henvironment := environment?_list hname hbody
  obtain ⟨more, hmore⟩ : ∃ more, Source.enclose name body = '\\' :: more := by
    obtain ⟨more, hmore, _⟩ := opener_isMark (listNames_spec hname).2
    exact ⟨_, by rw [Source.enclose, hmore, List.cons_append, List.cons_append]⟩
  unfold PassesItems
  rw [hmore, List.cons_append] at henvironment ⊢
  rw [itemParts, henvironment]
  dsimp only
  rw [List.length_cons, Nat.add_sub_cancel, skip]
  rfl

end PassesItems

structure Passes (x r : Text) : Prop where
  ends : PassesEnds x r
  items : PassesItems x r

namespace Passes

variable {x y r : Text}

theorem append (hx : Passes x (y ++ r)) (hy : Passes y r) : Passes (x ++ y) r :=
  ⟨hx.ends.append hy.ends, hx.items.append hy.items⟩

theorem of_silent (h : Silent x r) : Passes x r := ⟨.of_silent h, .of_silent h⟩

theorem of_not_mem (h : '\\' ∉ x) : Passes x r := of_silent (silent_of_not_mem h r)

theorem enclose {name body : Text} (hname : name ∈ listNames)
    (hbody : PassesEnds body (closer name ++ r)) : Passes (enclose name body) r :=
  ⟨.enclose hname hbody, .enclose hname hbody⟩

end Passes

def spellItem (item : List Block) : Text := "\\item " ++ (spellBlocks item ++ ['\n'])

theorem spellItems_cons (item : List Block) (more : List (List Block)) :
    spellItems (item :: more) = spellItem item ++ spellItems more := by
  simp [spellItems, spellItem]

theorem PassesEnds.itemMark (r : Text) : PassesEnds "\\item " r := by
  intro name hname depth
  have hletters : ("\\item " : Text) = '\\' :: "item " := by simp
  have hrest : PassesEnds "item " r := .of_not_mem (by simp)
  rw [hletters, List.cons_append, closeEnvironment_cons (by simp [closer]) (by simp [opener]),
    hrest name hname, map_onto_onto]
  rfl

theorem itemParts_itemMark (s : Text) :
    itemParts 0 ("\\item " ++ s) = [] :: ("\\item " : Text).foldr consHead (itemParts 0 s) := by
  have hletters : ("\\item " : Text) = '\\' :: "item " := by simp
  have hbegin : ("\\begin" : Text).isPrefixOf? ("\\item " ++ s) = none :=
    isPrefixOf?_eq_none.2 (by simp)
  have hmark : ("\\item" : Text).isPrefixOf? ("\\item " ++ s) = some (' ' :: s) := by
    rw [isPrefixOf?_eq_some]
    simp
  have hstarts : startsItem ("\\item " ++ s) := by
    rw [startsItem, hmark]
    rfl
  have henvironment := environment?_eq_none hbegin
  have hrest : PassesItems "item " s := .of_not_mem (by simp)
  unfold PassesItems at hrest
  rw [hletters, List.cons_append] at henvironment hstarts ⊢
  rw [itemParts, henvironment, hstarts, if_pos rfl, hrest, List.foldr_cons]

section

variable {items : List (List Block)}
  (hpass : ∀ item ∈ items, ∀ s, Passes (spellBlocks item) ('\n' :: s))

include hpass

theorem passesEnds_spellItems (r : Text) : PassesEnds (spellItems items) r := by
  induction items with
  | nil =>
    rw [spellItems]
    exact .of_not_mem (by simp)
  | cons item more ih =>
    rw [List.forall_mem_cons] at hpass
    rw [spellItems_cons, spellItem]
    refine .append (.append (.itemMark _) (.append ?_ (.of_not_mem (by simp)))) (ih hpass.2)
    exact (hpass.1 _).ends

theorem passesEnds_body (r : Text) : PassesEnds ('\n' :: spellItems items) r := by
  have hbreak : PassesEnds ['\n'] (spellItems items ++ r) := .of_not_mem (by simp)
  exact hbreak.append (passesEnds_spellItems hpass r)

/-- A list is cut in front of its items and nowhere else. -/
theorem itemParts_spellItems : itemParts 0 (spellItems items) = [] :: items.map spellItem := by
  induction items with
  | nil =>
    rw [spellItems]
    rfl
  | cons item more ih =>
    rw [List.forall_mem_cons] at hpass
    have hitem : PassesItems (spellBlocks item ++ ['\n']) (spellItems more) :=
      .append (hpass.1 _).items (.of_not_mem (by simp))
    unfold PassesItems at hitem
    rw [spellItems_cons, spellItem, List.append_assoc, itemParts_itemMark, hitem, ih hpass.2,
      foldr_consHead, foldr_consHead, List.append_nil, List.map_cons, spellItem]

theorem items_spelled : Source.items ('\n' :: spellItems items) =
    items.map fun item => itemText (spellItem item) := by
  have hbreak : PassesItems ['\n'] (spellItems items) := .of_not_mem (by simp)
  have hparts : itemParts 0 ('\n' :: spellItems items) = ['\n'] :: items.map spellItem := by
    unfold PassesItems at hbreak
    rw [itemParts_spellItems hpass] at hbreak
    exact hbreak
  rw [Source.items, hparts, List.tail_cons, List.map_map]
  rfl

end

end Source

end TexCatalog
