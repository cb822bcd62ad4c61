import TexCatalog.Proofs.BibtexEntries
import TexCatalog.Proofs.FieldBlanks

/-!
# Author lists from their names

A list of authors is written name by name with the word `and` in between, and every name in one of
four ways. An entry with that list is read to the authors with those names, in their order, and they
are shown by their full names.
-/

namespace TexCatalog

namespace Text

/-! ### Words -/

theorem words_word {w : Text} (hne : w ≠ []) (h : ∀ c ∈ w, ¬c.isBlank) : words w = [w] := by
  have hsplit : splitWhere Char.isBlank w = [w] := by
    clear hne
    induction w with
    | nil => rfl
    | cons c w ih =>
      rw [List.forall_mem_cons] at h
      rw [splitWhere, if_neg h.1, ih h.2]
      rfl
  rw [words, hsplit, List.filter_cons_of_pos (by simpa using hne)]
  rfl

/-- The words in a row with one space between neighbours are its words. -/
theorem words_join {ws : List Text} (h : ∀ w ∈ ws, w ≠ [] ∧ ∀ c ∈ w, ¬c.isBlank) :
    words (join [' '] ws) = ws := by
  induction ws with
  | nil => rfl
  | cons w more ih =>
    obtain ⟨⟨hne, hw⟩, hmore⟩ := List.forall_mem_cons.1 h
    cases more with
    | nil => exact words_word hne hw
    | cons next more =>
      rw [join_cons_cons, List.append_assoc, List.singleton_append, words_append_blank (by decide),
        words_word hne hw, ih hmore]
      rfl

theorem mem_words {w t : Text} (h : w ∈ words t) : w ≠ [] ∧ ∀ c ∈ w, ¬c.isBlank := by
  obtain ⟨hw, hne⟩ := List.mem_filter.1 h
  refine ⟨by simpa using hne, ?_⟩
  clear h hne
  induction t generalizing w with
  | nil =>
    rw [splitWhere, List.mem_singleton] at hw
    exact hw ▸ List.forall_mem_nil _
  | cons c t ih =>
    rw [splitWhere] at hw
    split at hw
    · rcases List.mem_cons.1 hw with rfl | hw
      · exact List.forall_mem_nil _
      · exact ih hw
    · next hc =>
      obtain ⟨part, parts, hparts⟩ :=
        List.exists_cons_of_ne_nil (splitWhere_ne_nil Char.isBlank t)
      rw [hparts, consHead] at hw
      rw [hparts] at ih
      rcases List.mem_cons.1 hw with rfl | hw
      · exact List.forall_mem_cons.2 ⟨hc, ih (List.mem_cons_self ..)⟩
      · exact ih (List.mem_cons_of_mem _ hw)

def SingleSpaced (t : Text) : Prop :=
  ∃ ws : List Text, ws ≠ [] ∧ (∀ w ∈ ws, w ≠ [] ∧ ∀ c ∈ w, ¬c.isBlank) ∧ t = join [' '] ws

theorem singleSpaced_iff {t : Text} : SingleSpaced t ↔ words t ≠ [] ∧ squeeze t = t := by
  constructor
  · rintro ⟨ws, hne, hws, rfl⟩
    rw [squeeze, words_join hws]
    exact ⟨hne, rfl⟩
  · rintro ⟨hne, hsqueeze⟩
    exact ⟨words t, hne, fun w => mem_words, hsqueeze.symm⟩

instance (t : Text) : Decidable (SingleSpaced t) := decidable_of_iff _ singleSpaced_iff.symm

namespace SingleSpaced

variable {t s : Text} (ht : SingleSpaced t)

include ht

theorem ends : t ≠ [] ∧ (∀ c ∈ t.head?, ¬c.isBlank) ∧ ∀ c ∈ t.getLast?, ¬c.isBlank := by
  obtain ⟨ws, hne, hws, rfl⟩ := ht
  obtain ⟨first, hfirst⟩ := Option.ne_none_iff_exists'.1 (mt List.head?_eq_none_iff.1 hne)
  obtain ⟨last, hlast⟩ := Option.ne_none_iff_exists'.1 (mt List.getLast?_eq_none_iff.1 hne)
  have hbegin : first <+: join [' '] ws := by
    have h := prefix_join [' '] ws
    rwa [hfirst] at h
  have hend : last <:+ join [' '] ws := by
    have h := suffix_join [' '] ws
    rwa [hlast] at h
  obtain ⟨hfne, hfblank⟩ := hws first (List.mem_of_head? hfirst)
  obtain ⟨hlne, hlblank⟩ := hws last (List.mem_of_getLast? hlast)
  obtain ⟨behind, hbehind⟩ := hbegin
  obtain ⟨before, hbefore⟩ := hend
  refine ⟨?_, ?_, ?_⟩
  · rw [← hbehind]
    exact List.append_ne_nil_of_left_ne_nil hfne behind
  · rw [← hbehind, List.head?_append_of_ne_nil first hfne]
    exact fun c hc => hfblank c (List.mem_of_head? hc)
  · rw [← hbefore, List.getLast?_append_of_ne_nil before hlne]
    exact fun c hc => hlblank c (List.mem_of_getLast? hc)

theorem trim : trim t = t := by
  have h := trim_append_blanks ht.ends.2.1 ht.ends.2.2 (List.forall_mem_nil _)
  rwa [List.append_nil] at h

theorem append (hs : SingleSpaced s) : SingleSpaced (t ++ ' ' :: s) := by
  obtain ⟨ws, hne, hws, rfl⟩ := ht
  obtain ⟨vs, hvs, hvs', rfl⟩ := hs
  refine ⟨ws ++ vs, List.append_ne_nil_of_left_ne_nil hne vs, ?_, ?_⟩
  · exact fun w hw => (List.mem_append.1 hw).elim (hws w) (hvs' w)
  · rw [join_append _ hne hvs, List.append_assoc]
    rfl

/-- A character that is put behind the last word belongs to it. -/
theorem concat {c : Char} (hc : ¬c.isBlank) :
    SingleSpaced (t ++ [c]) ∧ ∀ w ∈ words (t ++ [c]), w ∈ words t ∨ c ∈ w := by
  obtain ⟨ws, hne, hws, rfl⟩ := ht
  obtain ⟨front, last, rfl⟩ := (List.eq_nil_or_concat ws).resolve_left hne
  rw [List.concat_eq_append] at hws ⊢
  have hjoin : join [' '] (front ++ [last]) ++ [c] = join [' '] (front ++ [last ++ [c]]) := by
    cases front with
    | nil => rfl
    | cons w front =>
      rw [join_append _ (List.cons_ne_nil w front) (List.cons_ne_nil last []),
        join_append _ (List.cons_ne_nil w front) (List.cons_ne_nil (last ++ [c]) []),
        List.append_assoc]
      rfl
  have hwords : ∀ w ∈ front ++ [last ++ [c]], w ≠ [] ∧ ∀ d ∈ w, ¬d.isBlank := by
    intro w hw
    rcases List.mem_append.1 hw with hw | hw
    · exact hws w (List.mem_append_left _ hw)
    · obtain ⟨_, hblank⟩ := hws last (List.mem_append_right _ (List.mem_cons_self ..))
      rw [List.mem_singleton.1 hw]
      refine ⟨by simp, fun d hd => ?_⟩
      rcases List.mem_append.1 hd with hd | hd
      · exact hblank d hd
      · rwa [List.mem_singleton.1 hd]
  refine ⟨⟨_, by simp, hwords, hjoin⟩, ?_⟩
  rw [hjoin, words_join hwords, words_join hws]
  intro w hw
  rcases List.mem_append.1 hw with hw | hw
  · exact .inl (List.mem_append_left _ hw)
  · rw [List.mem_singleton.1 hw]
    exact .inr (List.mem_append_right _ (List.mem_cons_self ..))

end SingleSpaced

end Text

namespace Bibliography.Bibtex

open Text

/-! ### Names as they are written -/

structure IsName (t : Text) : Prop where
  spaced : SingleSpaced t
  plain : ∀ c ∈ t, c ∉ ("\\\x7b\x7d" : Text)

instance (t : Text) : Decidable (IsName t) :=
  decidable_of_iff (SingleSpaced t ∧ t.all fun c => c ∉ ("\\\x7b\x7d" : Text))
    ⟨fun h => ⟨h.1, fun c hc => of_decide_eq_true (List.all_eq_true.1 h.2 c hc)⟩,
      fun h => ⟨h.spaced, List.all_eq_true.2 fun c hc => decide_eq_true (h.plain c hc)⟩⟩

/-- A name that can stand in a list without braces around it. -/
structure IsListed (t : Text) : Prop extends IsName t where
  ascii : ∀ c ∈ t, c.toNat < 128
  noAnd : ("and" : Text) ∉ words t

instance (t : Text) : Decidable (IsListed t) :=
  decidable_of_iff
    (IsName t ∧ (t.all fun c => c.toNat < 128) ∧ (words t).all fun w => w ≠ ("and" : Text))
    ⟨fun h => ⟨h.1, fun c hc => of_decide_eq_true (List.all_eq_true.1 h.2.1 c hc),
        fun hand => of_decide_eq_true (List.all_eq_true.1 h.2.2 _ hand) rfl⟩,
      fun h => ⟨h.toIsName, List.all_eq_true.2 fun c hc => decide_eq_true (h.ascii c hc),
        List.all_eq_true.2 fun _ hw => decide_eq_true fun hand => h.noAnd (hand ▸ hw)⟩⟩

/-- A family name or a given name. -/
structure IsPart (t : Text) : Prop extends IsListed t where
  commaless : ',' ∉ t

instance (t : Text) : Decidable (IsPart t) :=
  decidable_of_iff (IsListed t ∧ ',' ∉ t)
    ⟨fun h => ⟨h.1, h.2⟩, fun h => ⟨h.toIsListed, h.commaless⟩⟩

/-- The name of an author in one of the ways in which it is written. -/
inductive WrittenName
  | inverted (family given : Text)
  | direct (given family : Text)
  | single (family : Text)
  | literal (name : Text)

namespace WrittenName

def spell : WrittenName → Text
  | inverted family given => family ++ ", " ++ given
  | direct given family => given ++ " " ++ family
  | single family => family
  | literal name => "\x7b" ++ name ++ "\x7d"

def author : WrittenName → Author
  | inverted family given | direct given family => { family := some family, given := some given }
  | single family => { family := some family }
  | literal name => { literal := some name }

def shown : WrittenName → Text
  | inverted family given | direct given family => given ++ " " ++ family
  | single family => family
  | literal name => name

/-- Only a family name of one word is not set apart by a comma. -/
def WellFormed : WrittenName → Prop
  | inverted family given => IsPart family ∧ IsPart given
  | direct given family => IsPart given ∧ IsPart family ∧ ' ' ∉ family
  | single family => IsPart family ∧ ' ' ∉ family
  | literal name => IsName name

instance : DecidablePred WellFormed
  | inverted family given => inferInstanceAs (Decidable (IsPart family ∧ IsPart given))
  | direct given family => inferInstanceAs (Decidable (IsPart given ∧ IsPart family ∧ ' ' ∉ family))
  | single family => inferInstanceAs (Decidable (IsPart family ∧ ' ' ∉ family))
  | literal name => inferInstanceAs (Decidable (IsName name))

end WrittenName

/-- The names of a list with the word `and` between them. -/
def spellNames (names : List WrittenName) : Text := join separator (names.map WrittenName.spell)

/-! ### Division -/

theorem utf8Size_of_ascii {c : Char} (h : c.toNat < 128) : c.utf8Size = 1 := by
  rw [Char.utf8Size_eq_one_iff, UInt32.le_iff_toNat_le]
  exact Nat.le_of_lt_succ h

theorem IsName.rise {t : Text} (h : IsName t) : ∀ c ∈ t, rise c = 0 := by
  intro c hc
  have hplain := h.plain c hc
  simp only [ofString_eq, String.reduceToList, List.mem_cons, List.not_mem_nil, or_false,
    not_or] at hplain
  simp [Bibtex.rise, hplain]

/-- A text without braces belongs to the name that ends behind it, in braces or if it is narrow and
no separator begins in it. -/
theorem splitNames_whole (depth : Int) {t s name : Text} (ht : ∀ c ∈ t, rise c = 0)
    (h : depth = 0 → (∀ c ∈ t, c.utf8Size = 1) ∧ ¬separator <:+: t ++ s)
    (hs : splitNames depth s = .ok [name]) : splitNames depth (t ++ s) = .ok [t ++ name] := by
  induction t with
  | nil => exact hs
  | cons c t ih =>
    rw [List.forall_mem_cons] at ht
    rw [List.cons_append, splitNames_cons, ht.1, Int.add_zero, ih ht.2]
    · rfl
    · intro hdepth
      obtain ⟨hsize, hnone⟩ := h hdepth
      exact ⟨(List.forall_mem_cons.1 hsize).2,
        fun hin => hnone (hin.trans (List.suffix_cons ..).isInfix)⟩
    · intro hdepth _ _
      obtain ⟨hsize, hnone⟩ := h hdepth
      exact ⟨(List.forall_mem_cons.1 hsize).1, fun hin => hnone hin.isInfix⟩

/-- A name that is not divided, nor joined with a separator behind it. -/
structure IsWhole (name : Text) : Prop where
  undivided : splitNames 0 name = .ok [name]
  level : level name = 0
  ending : ¬(" and" : Text) <:+ name

theorem splitNames_names {names : List Text} (hne : names ≠ []) (h : ∀ name ∈ names, IsWhole name) :
    splitNames 0 (join separator names) = .ok names := by
  induction names with
  | nil => exact absurd rfl hne
  | cons name more ih =>
    obtain ⟨hname, hmore⟩ := List.forall_mem_cons.1 h
    cases more with
    | nil => exact hname.undivided
    | cons next more =>
      have hrest := ih (List.cons_ne_nil next more) hmore
      have hblank : ∀ c ∈ (separator ++ join separator (next :: more)).head?, c.isBlank := by
        simp [separator_eq, Char.isBlank]
      have hbehind : splitNames (0 + Bibtex.level name)
          (separator ++ join separator (next :: more)) = .ok ([] :: next :: more) := by
        rw [hname.level, Int.add_zero, splitNames_separator, hrest]
        rfl
      have happend := splitNames_append
        (apart_blank hblank fun hcut => hname.ending hcut.2.1) hname.undivided hbehind
      rw [join_cons_cons, List.append_assoc, happend]
      simp [glue]

theorem IsListed.isWhole {t : Text} (h : IsListed t) : IsWhole t := by
  have hspace : Char.isBlank ' ' := by decide
  have hword : words "and" = [("and" : Text)] := by decide_cbv
  have hinside : ¬separator <:+: t := by
    rintro ⟨u, v, huv⟩
    have hcut : u ++ separator ++ v = u ++ ' ' :: ("and" ++ ' ' :: v) := by simp [separator_eq]
    refine h.noAnd ?_
    rw [← huv, hcut, words_append_blank hspace, words_append_blank hspace, hword]
    simp
  refine ⟨?_, level_eq_zero h.rise, ?_⟩
  · have hwhole := splitNames_whole 0 (s := []) h.rise (fun _ =>
      ⟨fun c hc => utf8Size_of_ascii (h.ascii c hc), by rwa [List.append_nil]⟩) splitNames_nil
    rwa [List.append_nil] at hwhole
  · rintro ⟨u, hu⟩
    have hcut : u ++ (" and" : Text) = u ++ ' ' :: "and" := by simp
    refine h.noAnd ?_
    rw [← hu, hcut, words_append_blank hspace, hword]
    simp

theorem IsName.isWhole {t : Text} (h : IsName t) : IsWhole ('{' :: (t ++ ['}'])) := by
  have hclose : splitNames 1 ['}'] = .ok [['}']] := by
    rw [splitNames_cons (by decide), splitNames]
    rfl
  have hinside := splitNames_whole 1 h.rise (fun hdepth => absurd hdepth (by decide)) hclose
  refine ⟨?_, ?_, ?_⟩
  · rw [splitNames_cons fun _ hopen => absurd rfl hopen]
    change (splitNames 1 (t ++ ['}'])).map _ = _
    rw [hinside]
    rfl
  · rw [level_cons, level_append, level_eq_zero h.rise]
    rfl
  · rintro ⟨u, hu⟩
    have hlast := congrArg List.getLast? hu
    rw [← List.cons_append, List.getLast?_concat] at hlast
    simp at hlast

theorem IsListed.append {t s : Text} (ht : IsListed t) (hs : IsListed s) :
    IsListed (t ++ ' ' :: s) where
  spaced := ht.spaced.append hs.spaced
  plain := by
    rw [List.forall_mem_append, List.forall_mem_cons]
    exact ⟨ht.plain, by simp, hs.plain⟩
  ascii := by
    rw [List.forall_mem_append, List.forall_mem_cons]
    exact ⟨ht.ascii, by decide, hs.ascii⟩
  noAnd := by
    rw [words_append_blank (by decide), List.mem_append, not_or]
    exact ⟨ht.noAnd, hs.noAnd⟩

theorem IsListed.comma {t : Text} (h : IsListed t) : IsListed (t ++ [',']) where
  spaced := (h.spaced.concat (by decide)).1
  plain := by
    rw [List.forall_mem_append, List.forall_mem_singleton]
    exact ⟨h.plain, by simp⟩
  ascii := by
    rw [List.forall_mem_append, List.forall_mem_singleton]
    exact ⟨h.ascii, by decide⟩
  noAnd := fun hand => by
    rcases (h.spaced.concat (by decide)).2 _ hand with hand | hcomma
    · exact h.noAnd hand
    · simp at hcomma

/-! ### Authors -/

theorem dropBraces_of_plain {t : Text} (h : ∀ c ∈ t, c ≠ '{' ∧ c ≠ '}') (s : Text) :
    dropBraces 0 (t ++ s) = t ++ dropBraces 0 s := by
  induction t with
  | nil => rfl
  | cons c t ih =>
    obtain ⟨⟨hopen, hclose⟩, ht⟩ := List.forall_mem_cons.1 h
    rw [List.cons_append, dropBraces_cons, if_neg hopen, if_neg hclose, ih ht]
    rfl

theorem closesLate_of_plain {t : Text} (h : ∀ c ∈ t, c ≠ '{' ∧ c ≠ '}') (depth : Nat) (s : Text) :
    closesLate depth (t ++ s) = closesLate depth s := by
  induction t with
  | nil => rfl
  | cons c t ih =>
    obtain ⟨⟨hopen, hclose⟩, ht⟩ := List.forall_mem_cons.1 h
    rw [List.cons_append, closesLate, if_neg hopen, if_neg hclose, ih ht]

namespace IsName

variable {t : Text} (h : IsName t)

include h

theorem braceless : ∀ c ∈ t, c ≠ '{' ∧ c ≠ '}' := by
  intro c hc
  have hplain := h.plain c hc
  simp only [ofString_eq, String.reduceToList, List.mem_cons, List.not_mem_nil, or_false,
    not_or] at hplain
  exact hplain.2

theorem cleanValue : cleanValue t = t := by
  have hdrop := dropBraces_of_plain h.braceless []
  rw [List.append_nil, dropBraces, List.append_nil] at hdrop
  rw [Bibtex.cleanValue, hdrop, (singleSpaced_iff.1 h.spaced).2]

theorem not_isGroup : isGroup t = false := by
  have hhead : (t.head? == some '{') = false := by
    apply beq_false_of_ne
    intro hhead
    exact (h.braceless _ (List.mem_of_head? hhead)).1 rfl
  rw [isGroup, hhead]
  rfl

theorem authorOfName_literal : authorOfName ('{' :: (t ++ ['}'])) = .ofLiteral t := by
  have hgroup : isGroup ('{' :: (t ++ ['}'])) = true := by
    have hlate : closesLate 0 ('{' :: (t ++ ['}'])) = true := by
      rw [closesLate, if_pos rfl, closesLate_of_plain h.braceless]
      decide
    rw [isGroup, hlate, ← List.cons_append, List.getLast?_concat]
    rfl
  have hclean : Bibtex.cleanValue ('{' :: (t ++ ['}'])) = t := by
    have hhead : (t ++ ['}']).head? ≠ some '\\' := by
      rw [List.head?_append_of_ne_nil t h.spaced.ends.1]
      intro hhead
      exact h.plain _ (List.mem_of_head? hhead) (by simp)
    have hdrop : dropBraces 0 (t ++ ['}']) = t := by
      rw [dropBraces_of_plain h.braceless]
      exact List.append_nil t
    rw [Bibtex.cleanValue, dropBraces_cons, if_pos rfl, if_neg hhead, hdrop,
      (singleSpaced_iff.1 h.spaced).2]
  rw [authorOfName, if_pos hgroup, hclean]

end IsName

namespace WrittenName

theorem spell_inverted (family given : Text) :
    (inverted family given).spell = family ++ [','] ++ ' ' :: given := by
  simp [spell]

theorem spell_direct (given family : Text) :
    (direct given family).spell = given ++ ' ' :: family := by
  simp [spell]

theorem spell_literal (name : Text) : (literal name).spell = '{' :: (name ++ ['}']) := by
  simp [spell]

/-- A name stands in the list as it is, or it stands in braces. -/
theorem WellFormed.listed {name : WrittenName} (h : name.WellFormed) :
    IsListed name.spell ∨ ∃ t, name = literal t ∧ IsName t := by
  cases name with
  | inverted family given =>
    rw [spell_inverted]
    exact .inl (h.1.toIsListed.comma.append h.2.toIsListed)
  | direct given family =>
    rw [spell_direct]
    exact .inl (h.1.toIsListed.append h.2.1.toIsListed)
  | single family => exact .inl h.1.toIsListed
  | literal name => exact .inr ⟨name, rfl, h⟩

/-- A name is read as its author. -/
theorem authorOfName_spell {name : WrittenName} (h : name.WellFormed) :
    authorOfName name.spell = name.author := by
  cases name with
  | literal name =>
    rw [spell_literal, IsName.authorOfName_literal h]
    rfl
  | inverted family given =>
    have hname := h.1.toIsListed.comma.append h.2.toIsListed
    have hspace : ∀ c ∈ [' '], c.isBlank := List.forall_mem_singleton.2 (by decide)
    have hgiven : trim (' ' :: given) = given := by
      rw [← List.singleton_append, trim_blanks_append hspace, h.2.spaced.trim]
    have hcut : family ++ [','] ++ ' ' :: given = family ++ ',' :: ' ' :: given := by simp
    rw [spell_inverted, authorOfName, hname.not_isGroup, if_neg Bool.false_ne_true,
      hname.cleanValue, hcut, cut?_char ',' _ h.1.commaless]
    simp only [h.1.spaced.trim, hgiven, Author.ofParts, if_neg h.2.spaced.ends.1]
    rfl
  | direct given family =>
    have hname := h.1.toIsListed.append h.2.1.toIsListed
    have hcomma : ',' ∉ given ++ ' ' :: family := by
      simp [h.1.commaless, h.2.1.commaless]
    rw [spell_direct, authorOfName, hname.not_isGroup, if_neg Bool.false_ne_true, hname.cleanValue,
      cut?_of_not_mem hcomma]
    simp only [cutLast?_char ' ' given h.2.2, Author.ofParts, if_neg h.1.spaced.ends.1]
    rfl
  | single family =>
    have hlast : cutLast? [' '] family = none :=
      cut?_eq_none_iff_cutLast?.1 (cut?_of_not_mem h.2)
    rw [spell, authorOfName, h.1.not_isGroup, if_neg Bool.false_ne_true, h.1.cleanValue,
      cut?_of_not_mem h.1.commaless]
    simp only [hlast, Author.ofParts]
    rfl

end WrittenName

theorem isWhole_spell {name : WrittenName} (h : name.WellFormed) : IsWhole name.spell := by
  rcases h.listed with hlisted | ⟨t, rfl, ht⟩
  · exact hlisted.isWhole
  · rw [WrittenName.spell_literal]
    exact ht.isWhole

theorem trim_spell {name : WrittenName} (h : name.WellFormed) :
    trim name.spell = name.spell ∧ name.spell ≠ [] := by
  rcases h.listed with hlisted | ⟨t, rfl, -⟩
  · exact ⟨hlisted.spaced.trim, hlisted.spaced.ends.1⟩
  · have hfirst : ∀ c ∈ ('{' :: (t ++ ['}'])).head?, ¬c.isBlank := by simp [Char.isBlank]
    have hlast : ∀ c ∈ ('{' :: (t ++ ['}'])).getLast?, ¬c.isBlank := by
      rw [← List.cons_append, List.getLast?_concat]
      simp [Char.isBlank]
    have htrim := trim_append_blanks hfirst hlast (List.forall_mem_nil _)
    rw [List.append_nil] at htrim
    rw [WrittenName.spell_literal]
    exact ⟨htrim, List.cons_ne_nil _ _⟩

/-- A list is read name by name. -/
theorem authorsOfList_spellNames {names : List WrittenName} (h : ∀ name ∈ names, name.WellFormed) :
    authorsOfList (spellNames names) = .ok (names.map WrittenName.author) := by
  cases hnames : names with
  | nil =>
    rw [authorsOfList, spellNames, List.map_nil, join, splitNames_nil]
    rfl
  | cons first more =>
    rw [← hnames]
    have hne : names.map WrittenName.spell ≠ [] := by simp [hnames]
    have hsplit : splitNames 0 (spellNames names) = .ok (names.map WrittenName.spell) := by
      refine splitNames_names hne ?_
      rw [List.forall_mem_map]
      exact fun name hname => isWhole_spell (h name hname)
    have htrim : (names.map WrittenName.spell).map trim = names.map WrittenName.spell := by
      rw [List.map_map]
      exact List.map_congr_left fun name hname => (trim_spell (h name hname)).1
    have hkept : (names.map WrittenName.spell).filter (· ≠ []) = names.map WrittenName.spell := by
      rw [List.filter_eq_self, List.forall_mem_map]
      exact fun name hname => decide_eq_true (trim_spell (h name hname)).2
    rw [authorsOfList, hsplit]
    change Except.ok
      ((((names.map WrittenName.spell).map trim).filter (· ≠ [])).map authorOfName) = _
    rw [htrim, hkept, List.map_map]
    exact congrArg Except.ok
      (List.map_congr_left fun name hname => WrittenName.authorOfName_spell (h name hname))

theorem fullName_author (name : WrittenName) : name.author.fullName = name.shown := by
  cases name <;> rfl

/-! ### Entries -/

theorem Balanced.of_rise {t : Text} (h : ∀ c ∈ t, rise c = 0) : Balanced t where
  front ht := Int.le_of_eq (level_eq_zero fun c hc => h c (ht.subset hc)).symm
  whole := level_eq_zero h

theorem Balanced.append {t s : Text} (ht : Balanced t) (hs : Balanced s) : Balanced (t ++ s) where
  front {u} hu := by
    rcases List.prefix_or_prefix_of_prefix hu (List.prefix_append t s) with hwithin | ⟨v, rfl⟩
    · exact ht.front hwithin
    · rw [level_append, ht.whole, Int.zero_add]
      exact hs.front ((List.prefix_append_right_inj t).1 hu)
  whole := by rw [level_append, ht.whole, hs.whole, Int.zero_add]

theorem Balanced.join {sep : Text} (hsep : Balanced sep) {pieces : List Text}
    (h : ∀ piece ∈ pieces, Balanced piece) : Balanced (Text.join sep pieces) :=
  join_of_append (.of_rise (List.forall_mem_nil _)) hsep (fun _ _ => .append) h

theorem IsName.balanced_group {t : Text} (h : IsName t) : Balanced ('{' :: (t ++ ['}'])) where
  front {u} hu := by
    rcases List.prefix_cons_iff.1 hu with rfl | ⟨u, rfl, hinside⟩
    · exact Int.le_refl 0
    · rcases List.prefix_concat_iff.1 hinside with rfl | hname
      · exact Int.le_of_eq h.isWhole.level.symm
      · rw [level_cons, level_eq_zero fun c hc => h.rise c (hname.subset hc)]
        decide
  whole := h.isWhole.level

theorem balanced_spellNames {names : List WrittenName} (h : ∀ name ∈ names, name.WellFormed) :
    Balanced (spellNames names) := by
  refine .join (.of_rise rise_separator) ?_
  rw [List.forall_mem_map]
  intro name hname
  rcases (h name hname).listed with hlisted | ⟨t, rfl, ht⟩
  · exact .of_rise hlisted.rise
  · rw [WrittenName.spell_literal]
    exact ht.balanced_group

end Bibliography.Bibtex

namespace Bibliography

open Bibtex

/-- The authors of an entry are those whose names are written in its author field, which can be a
group in braces. -/
theorem ofBibtex_authors {e : WrittenEntry} {names : List WrittenName} (he : e.WellFormed)
    (hnames : ∀ name ∈ names, name.WellFormed)
    (hvalue : e.lastValue? "author" = some (spellNames names)) :
    (WrittenValue.braced (spellNames names)).WellFormed ∧
      ∃ entry, ofBibtex e.spell = .ok (.ofList [(e.key, entry)]) ∧
        entry.authors = names.map WrittenName.author ∧
        entry.authors.map Author.fullName = names.map WrittenName.shown := by
  have hentry : e.read.toEntry = .ok (e.read.describe (names.map WrittenName.author)) := by
    rw [RawEntry.toEntry, RawEntry.authors, e.get?_read, hvalue]
    change (authorsOfList (spellNames names)).map e.read.describe = _
    rw [authorsOfList_spellNames hnames]
    rfl
  have hread : toEntries (e.alone.entries.map WrittenEntry.read) =
      .ok [e.read.describe (names.map WrittenName.author)] := by
    change toEntries [e.read] = _
    rw [toEntries, hentry]
    rfl
  refine ⟨balanced_spellNames hnames, e.read.describe (names.map WrittenName.author), ?_, rfl, ?_⟩
  · rw [← e.spell_alone, ofBibtex_eq_ok he.alone hread]
    rfl
  · change (names.map WrittenName.author).map Author.fullName = _
    rw [List.map_map]
    exact List.map_congr_left fun name _ => fullName_author name

/-- A family name of three words, a literal with the word between names, and the two short ways. -/
def mixedNames : List WrittenName :=
  [.inverted "van der Wold" "Jory D.", .literal "Field and Stone", .direct "Ida B." "Fernley",
    .single "Tam"]

def mixedEntry : WrittenEntry :=
  secondEdition [tightField "author" (.braced (spellNames mixedNames))]

theorem ofBibtex_authors_mixedEntry : mixedEntry.WellFormed ∧
    (∀ name ∈ mixedNames, name.WellFormed) ∧
    mixedEntry.lastValue? "author" = some (spellNames mixedNames) ∧
    ∃ entry, ofBibtex mixedEntry.spell = .ok (.ofList [(mixedEntry.key, entry)]) ∧
      entry.authors = mixedNames.map WrittenName.author ∧
      entry.authors.map Author.fullName =
        ["Jory D. van der Wold", "Field and Stone", "Ida B. Fernley", "Tam"] := by
  have hnames : ∀ name ∈ mixedNames, name.WellFormed := by decide +kernel
  have hvalue : mixedEntry.lastValue? "author" = some (spellNames mixedNames) := by decide +kernel
  have hauthor : IsWord isFieldChar "author" := twoEditions_texts.2.1 _ (by simp)
  have hentry : mixedEntry.WellFormed := secondEdition_wellFormed (List.cons_ne_nil _ _)
    (List.forall_mem_singleton.2 (tightField_wellFormed hauthor (balanced_spellNames hnames)))
  have hshown : mixedNames.map WrittenName.shown =
      ["Jory D. van der Wold", "Field and Stone", "Ida B. Fernley", "Tam"] := by
    decide +kernel
  obtain ⟨-, entry, hread, hauthors, hfull⟩ := ofBibtex_authors hentry hnames hvalue
  exact ⟨hentry, hnames, hvalue, entry, hread, hauthors, hfull.trans hshown⟩

end Bibliography

end TexCatalog
