import Mathlib.Data.List.TakeWhile
import TexCatalog.Proofs.BibtexOutcomes
import TexCatalog.Proofs.CommentLines

/-!
# Blanks in field values

A run of blanks in a field value may be laid out in any way: the cleaned value has one space for it.
The names of an author list are cleaned after the list has been divided, and the division looks for
the word `and` between two spaces. So a run may be laid out in any way there as well, but next to
such a word outside braces it must keep the space that it has at this side, and have none if it had
none.
-/

namespace TexCatalog

namespace Text

def IsRun (g : Text) : Prop := g ≠ [] ∧ ∀ c ∈ g, c.isBlank

instance (g : Text) : Decidable (IsRun g) :=
  decidable_of_iff (g ≠ [] ∧ g.all Char.isBlank) (and_congr_right' List.all_eq_true)

theorem words_append_blank {c : Char} (hc : c.isBlank) (t s : Text) :
    words (t ++ c :: s) = words t ++ words s := by
  unfold words
  rw [splitWhere_cut hc, List.filter_append]

theorem words_blanks {g : Text} (h : ∀ c ∈ g, c.isBlank) (t : Text) : words (g ++ t) = words t := by
  induction g with
  | nil => rfl
  | cons c g ih =>
    rw [List.cons_append, ← List.nil_append (c :: (g ++ t)),
      words_append_blank (h c (List.mem_cons_self ..)),
      ih fun d hd => h d (List.mem_cons_of_mem c hd)]
    rfl

theorem words_run {g : Text} (h : IsRun g) (t s : Text) :
    words (t ++ (g ++ s)) = words t ++ words s := by
  obtain ⟨c, g, rfl⟩ := List.exists_cons_of_ne_nil h.1
  rw [List.cons_append, words_append_blank (h.2 c (List.mem_cons_self ..)),
    words_blanks fun d hd => h.2 d (List.mem_cons_of_mem c hd)]

/-- Trimming takes a run of blanks away with all that is in front of it or behind it, or it leaves
the run and something on both sides. -/
theorem trim_run (a b : Text) :
    (∃ t, ∀ g, IsRun g → trim (a ++ (g ++ b)) = t) ∨
      ∃ a' b', a' ≠ [] ∧ b' ≠ [] ∧ ∀ g, IsRun g → trim (a ++ (g ++ b)) = a' ++ (g ++ b') := by
  unfold trim
  by_cases ha : ∀ c ∈ a, c.isBlank
  · refine .inl ⟨trimEnd (trimStart b), fun g hg => ?_⟩
    rw [trimStart_blanks ha, trimStart_blanks hg.2]
  · by_cases hb : ∀ c ∈ b, c.isBlank
    · refine .inl ⟨trimEnd (trimStart a), fun g hg => ?_⟩
      rw [(trimStart_append ha _).1, trimEnd_blanks]
      intro c hc
      exact (List.mem_append.1 hc).elim (hg.2 c) (hb c)
    · refine .inr ⟨trimStart a, trimEnd b, (trimStart_append ha []).2, (trimEnd_append hb []).2,
        fun g hg => ?_⟩
      rw [(trimStart_append ha _).1, ← List.append_assoc, (trimEnd_append hb _).1,
        List.append_assoc]

end Text

namespace Bibliography.Bibtex

open Text

/-! ### Cleaned values -/

theorem dropBraces_cons (kept : Nat) (c : Char) (s : Text) : dropBraces kept (c :: s) =
    if c = '{' then
      if s.head? = some '\\' then c :: dropBraces (kept + 1) s else dropBraces kept s
    else if c = '}' then
      match kept with
      | 0 => dropBraces 0 s
      | kept + 1 => c :: dropBraces kept s
    else c :: dropBraces kept s := by
  cases kept <;> rfl

/-- What braces are dropped in front of a text does not depend on it, unless it begins with a
backslash. -/
theorem dropBraces_append (x : Text) (kept : Nat) : ∃ kept', ∀ w : Text, w.head? ≠ some '\\' →
    dropBraces kept (x ++ w) = dropBraces kept x ++ dropBraces kept' w := by
  induction x generalizing kept with
  | nil => exact ⟨kept, fun w _ => rfl⟩
  | cons c s ih =>
    by_cases hopen : c = '{'
    · by_cases hs : s.head? = some '\\'
      · obtain ⟨kept', ih⟩ := ih (kept + 1)
        refine ⟨kept', fun w hw => ?_⟩
        have hhead : (s ++ w).head? = some '\\' := by
          rw [List.head?_append, hs]
          rfl
        rw [List.cons_append, dropBraces_cons, dropBraces_cons, if_pos hopen, if_pos hopen,
          if_pos hhead, if_pos hs, ih w hw, List.cons_append]
      · obtain ⟨kept', ih⟩ := ih kept
        refine ⟨kept', fun w hw => ?_⟩
        have hhead : (s ++ w).head? ≠ some '\\' := by
          cases s with
          | nil => exact hw
          | cons d s => exact hs
        rw [List.cons_append, dropBraces_cons, dropBraces_cons, if_pos hopen, if_pos hopen,
          if_neg hhead, if_neg hs, ih w hw]
    · by_cases hclose : c = '}'
      · cases kept with
        | zero =>
          obtain ⟨kept', ih⟩ := ih 0
          refine ⟨kept', fun w hw => ?_⟩
          rw [List.cons_append, dropBraces_cons, dropBraces_cons, if_neg hopen, if_neg hopen,
            if_pos hclose, if_pos hclose]
          exact ih w hw
        | succ kept =>
          obtain ⟨kept', ih⟩ := ih kept
          refine ⟨kept', fun w hw => ?_⟩
          rw [List.cons_append, dropBraces_cons, dropBraces_cons, if_neg hopen, if_neg hopen,
            if_pos hclose, if_pos hclose]
          exact congrArg (c :: ·) (ih w hw)
      · obtain ⟨kept', ih⟩ := ih kept
        refine ⟨kept', fun w hw => ?_⟩
        rw [List.cons_append, dropBraces_cons, dropBraces_cons, if_neg hopen, if_neg hopen,
          if_neg hclose, if_neg hclose, ih w hw, List.cons_append]

theorem not_brace_of_isBlank {c : Char} (h : c.isBlank) : c ≠ '{' ∧ c ≠ '}' ∧ c ≠ '\\' := by
  refine ⟨?_, ?_, ?_⟩ <;> rintro rfl <;> exact absurd h (by decide)

theorem dropBraces_blanks {g : Text} (h : ∀ c ∈ g, c.isBlank) (kept : Nat) (w : Text) :
    dropBraces kept (g ++ w) = g ++ dropBraces kept w := by
  induction g with
  | nil => rfl
  | cons c g ih =>
    obtain ⟨hopen, hclose, _⟩ := not_brace_of_isBlank (h c (List.mem_cons_self ..))
    rw [List.cons_append, dropBraces_cons, if_neg hopen, if_neg hclose,
      ih fun d hd => h d (List.mem_cons_of_mem c hd), List.cons_append]

theorem closesLate_blanks {g : Text} (h : ∀ c ∈ g, c.isBlank) (depth : Nat) (w : Text) :
    closesLate depth (g ++ w) = closesLate depth w := by
  induction g with
  | nil => rfl
  | cons c g ih =>
    obtain ⟨hopen, hclose, _⟩ := not_brace_of_isBlank (h c (List.mem_cons_self ..))
    rw [List.cons_append, closesLate, if_neg hopen, if_neg hclose,
      ih fun d hd => h d (List.mem_cons_of_mem c hd)]

section

variable {g g' : Text} (hg : IsRun g) (hg' : IsRun g')

include hg in
theorem head?_run (w : Text) : (g ++ w).head? ≠ some '\\' := by
  obtain ⟨c, g, rfl⟩ := List.exists_cons_of_ne_nil hg.1
  have hc := (not_brace_of_isBlank (hg.2 c (List.mem_cons_self ..))).2.2
  simpa using hc

include hg hg'

/-- A run of blanks in a value may be laid out in any way. -/
theorem cleanValue_run (x y : Text) : cleanValue (x ++ (g ++ y)) = cleanValue (x ++ (g' ++ y)) := by
  obtain ⟨kept, happend⟩ := dropBraces_append x 0
  unfold cleanValue squeeze
  rw [happend _ (head?_run hg y), happend _ (head?_run hg' y), dropBraces_blanks hg.2,
    dropBraces_blanks hg'.2, words_run hg, words_run hg']

/-! ### Names -/

theorem closesLate_run (x : Text) {y : Text} (hy : y ≠ []) (depth : Nat) :
    closesLate depth (x ++ (g ++ y)) = closesLate depth (x ++ (g' ++ y)) := by
  induction x generalizing depth with
  | nil =>
    rw [List.nil_append, List.nil_append, closesLate_blanks hg.2, closesLate_blanks hg'.2]
  | cons c x ih =>
    have hne (g : Text) : ¬x ++ (g ++ y) = [] := by simp [hy]
    simp only [List.cons_append, closesLate, ih, hne]

/-- A run of blanks inside a name may be laid out in any way. -/
theorem authorOfName_run {x y : Text} (hx : x ≠ []) (hy : y ≠ []) :
    authorOfName (x ++ (g ++ y)) = authorOfName (x ++ (g' ++ y)) := by
  have hhead (g : Text) : (x ++ (g ++ y)).head? = x.head? := List.head?_append_of_ne_nil x hx
  have hlast (g : Text) : (x ++ (g ++ y)).getLast? = y.getLast? := by
    rw [← List.append_assoc, List.getLast?_append_of_ne_nil _ hy]
  rw [authorOfName, authorOfName, isGroup, isGroup, cleanValue_run hg hg' x y,
    closesLate_run hg hg' x hy, hhead, hhead, hlast, hlast]

end

def authorsOfNames (names : List Text) : List Author :=
  ((names.map trim).filter (· ≠ [])).map authorOfName

/-- The name at which a run of blanks stands is blank with the run and without it, or the run may be
laid out in any way. -/
theorem authorsOfNames_run {g g' : Text} (hg : IsRun g) (hg' : IsRun g') (front back : List Text)
    (a b : Text) :
    authorsOfNames (front ++ (a ++ (g ++ b)) :: back) =
      authorsOfNames (front ++ (a ++ (g' ++ b)) :: back) := by
  unfold authorsOfNames
  rcases trim_run a b with ⟨t, ht⟩ | ⟨a', b', ha, hb, ht⟩
  · simp only [List.map_append, List.map_cons, ht g hg, ht g' hg']
  · have hne (g : Text) : a' ++ (g ++ b') ≠ [] := by simp [ha]
    simp only [List.map_append, List.map_cons, List.filter_append, List.filter_cons, ht g hg,
      ht g' hg', hne, decide_true, if_true, authorOfName_run hg hg' ha hb, ne_eq,
      not_false_eq_true]

/-- Blanks in a name may be laid out in any way where they cannot join what is no blank: there are
some in either layout, or there is a blank or nothing at all on one side. -/
theorem authorsOfNames_blanks {m m' : Text} (hm : ∀ c ∈ m, c.isBlank) (hm' : ∀ c ∈ m', c.isBlank)
    (front back : List Text) {a b : Text} (h : m ≠ [] ∧ m' ≠ [] ∨ (∀ c ∈ a.getLast?, c.isBlank) ∨
      ∀ c ∈ b.head?, c.isBlank) :
    authorsOfNames (front ++ (a ++ (m ++ b)) :: back) =
      authorsOfNames (front ++ (a ++ (m' ++ b)) :: back) := by
  rcases h with ⟨hne, hne'⟩ | ha | hb
  · exact authorsOfNames_run ⟨hne, hm⟩ ⟨hne', hm'⟩ front back a b
  · rcases List.eq_nil_or_concat a with rfl | ⟨a, c, rfl⟩
    · simp only [authorsOfNames, List.map_append, List.map_cons, List.nil_append, trim,
        trimStart_blanks hm, trimStart_blanks hm']
    · have hc : c.isBlank := ha c (by simp)
      have hrun {r : Text} (hr : ∀ d ∈ r, d.isBlank) : IsRun (c :: r) :=
        ⟨List.cons_ne_nil c r, List.forall_mem_cons.2 ⟨hc, hr⟩⟩
      simpa using authorsOfNames_run (hrun hm) (hrun hm') front back a b
  · cases b with
    | nil =>
      simp only [authorsOfNames, List.map_append, List.map_cons, List.append_nil, trim_blanks hm,
        trim_blanks hm']
    | cons c b =>
      have hc : c.isBlank := hb c rfl
      have hrun {r : Text} (hr : ∀ d ∈ r, d.isBlank) : IsRun (r ++ [c]) :=
        ⟨by simp, by simpa [or_imp, forall_and] using ⟨hr, hc⟩⟩
      simpa using authorsOfNames_run (hrun hm) (hrun hm') front back a b

/-! ### Divided lists -/

/-- The parts of two texts one behind the other: the last part of the first goes on with the first
part of the second. -/
def glue (xs ys : List Text) : List Text :=
  xs.dropLast ++ (xs.getLast?.getD [] ++ ys.head?.getD []) :: ys.tail

theorem glue_consHead (c : Char) {xs : List Text} (h : xs ≠ []) (ys : List Text) :
    glue (consHead c xs) ys = consHead c (glue xs ys) := by
  match xs with
  | [] => exact absurd rfl h
  | [_] => rfl
  | _ :: _ :: _ => rfl

theorem glue_nil_cons {xs : List Text} (h : xs ≠ []) (ys : List Text) :
    glue ([] :: xs) ys = [] :: glue xs ys := by
  obtain ⟨x, more, rfl⟩ := List.exists_cons_of_ne_nil h
  rfl

def separator : Text := " and "

theorem separator_eq : separator = [' ', 'a', 'n', 'd', ' '] := by simp [separator]

section

variable {depth : Int} {c : Char} {s : Text}

theorem splitNames_nil : splitNames depth [] = .ok [[]] := by
  rw [splitNames]

/-- A character that is neither wide nor the beginning of a separator outside braces belongs to the
name that goes on behind it. -/
theorem splitNames_cons (h : depth = 0 → c ≠ '{' → c ≠ '}' →
    c.utf8Size = 1 ∧ ¬separator <+: c :: s) :
    splitNames depth (c :: s) = (splitNames (depth + rise c) s).map (consHead c) := by
  rw [splitNames]
  by_cases hopen : c = '{'
  · rw [if_pos hopen, rise, if_pos hopen]
  · by_cases hclose : c = '}'
    · rw [if_neg hopen, if_pos hclose, rise, if_neg hopen, if_pos hclose, Int.sub_eq_add_neg]
    · rw [if_neg hopen, if_neg hclose, rise, if_neg hopen, if_neg hclose, Int.add_zero]
      by_cases hdepth : depth = 0
      · obtain ⟨hsize, hseparator⟩ := h hdepth hopen hclose
        rw [if_pos hdepth, if_neg (by omega), if_neg (by rwa [List.isPrefixOf_iff_prefix])]
      · rw [if_neg hdepth]

theorem splitNames_separator (t : Text) :
    splitNames 0 (separator ++ t) = (splitNames 0 t).map ([] :: ·) := by
  have hlist : separator = ' ' :: ['a', 'n', 'd', ' '] := separator_eq
  have hprefix : (" and " : Text).isPrefixOf (' ' :: (['a', 'n', 'd', ' '] ++ t)) := by
    rw [List.isPrefixOf_iff_prefix, ← List.cons_append, ← hlist]
    exact List.prefix_append separator t
  rw [hlist, List.cons_append, splitNames, if_neg (by decide), if_neg (by decide), if_pos rfl,
    if_neg (by decide), if_pos hprefix]
  rfl

end

/-- The parts of a list with separators between them are the list. -/
theorem splitNames_join {depth : Int} {s : Text} {names : List Text}
    (h : splitNames depth s = .ok names) : names ≠ [] ∧ join separator names = s := by
  have hmap {f : List Text → List Text} {r : Except Failure (List Text)} {names : List Text}
      (h : r.map f = .ok names) : ∃ parts, r = .ok parts ∧ names = f parts := by
    cases r with
    | error e => cases h
    | ok parts => exact ⟨parts, rfl, (Except.ok.inj h).symm⟩
  fun_induction splitNames depth s generalizing names with
  | case1 =>
    cases h
    exact ⟨by simp, rfl⟩
  | case4 => cases h
  | case2 depth s ih | case3 depth s _ ih | case6 c s _ _ _ _ ih | case7 depth c s _ _ _ ih =>
    obtain ⟨parts, hparts, rfl⟩ := hmap h
    exact ⟨consHead_ne_nil _ _, by rw [join_consHead, (ih hparts).2]⟩
  | case5 c s _ _ _ hand ih =>
    obtain ⟨parts, hparts, rfl⟩ := hmap h
    obtain ⟨rest, hrest⟩ := List.isPrefixOf_iff_prefix.1 hand
    have hlist : (" and " : Text) = [' ', 'a', 'n', 'd', ' '] := separator_eq
    refine ⟨List.cons_ne_nil [] parts, ?_⟩
    rw [join_nil_cons _ (ih hparts).1, (ih hparts).2, ← hrest]
    rw [hlist] at hrest
    rw [← (List.cons.inj hrest).2]
    rfl

theorem splitNames_ne_nil {depth : Int} {s : Text} {names : List Text}
    (h : splitNames depth s = .ok names) : names ≠ [] :=
  (splitNames_join h).1

theorem rise_separator : ∀ c ∈ separator, rise c = 0 := by
  simp [separator_eq, rise]

theorem level_eq_zero {t : Text} (h : ∀ c ∈ t, rise c = 0) : level t = 0 := by
  induction t with
  | nil => rfl
  | cons c t ih =>
    rw [level_cons, h c (List.mem_cons_self ..), ih fun d hd => h d (List.mem_cons_of_mem c hd)]
    rfl

theorem level_blanks {m : Text} (h : ∀ c ∈ m, c.isBlank) : level m = 0 := by
  refine level_eq_zero fun c hc => ?_
  obtain ⟨hopen, hclose, _⟩ := not_brace_of_isBlank (h c hc)
  rw [rise, if_neg hopen, if_neg hclose]

/-- No separator outside braces begins in front of a place and ends behind it. -/
def Apart (depth : Int) (x w : Text) : Prop :=
  depth + level x = 0 → ∀ part rest, part ≠ [] → rest ≠ [] → part ++ rest = separator →
    part <:+ x → ¬rest <+: w

/-- A list is divided part by part where no separator is cut. -/
theorem splitNames_append {depth : Int} {x w : Text} {xs ys : List Text} (hapart : Apart depth x w)
    (hx : splitNames depth x = .ok xs) (hw : splitNames (depth + level x) w = .ok ys) :
    splitNames depth (x ++ w) = .ok (glue xs ys) := by
  induction hn : x.length using Nat.strong_induction_on generalizing depth x xs with
  | h n ih =>
    subst hn
    cases x with
    | nil =>
      rw [splitNames_nil] at hx
      cases hx
      obtain ⟨y, more, rfl⟩ := List.exists_cons_of_ne_nil (splitNames_ne_nil hw)
      rwa [level_nil, Int.add_zero] at hw
    | cons c s =>
      have hnarrow : depth = 0 → c.utf8Size = 1 := by
        intro hdepth
        have := c.utf8Size_pos
        rcases splitNames_outcome depth (c :: s) with ⟨_, he⟩ | ⟨hwide, _⟩
        · rw [he] at hx
          cases hx
        · rw [hasWide_cons, not_or] at hwide
          omega
      have hmap {f : List Text → List Text} {r : Except Failure (List Text)}
          (h : r.map f = .ok xs) : ∃ names, r = .ok names ∧ xs = f names := by
        cases r with
        | error e => cases h
        | ok names => exact ⟨names, rfl, (Except.ok.inj h).symm⟩
      by_cases hseparator : depth = 0 ∧ separator <+: c :: s
      · obtain ⟨rfl, t, ht⟩ := hseparator
        have hlevel : level (c :: s) = level t := by
          rw [← ht, level_append, level_eq_zero rise_separator, Int.zero_add]
        have hlt : t.length < (c :: s).length := by
          rw [← ht, List.length_append]
          have hpos : 0 < separator.length := by simp [separator_eq]
          omega
        rw [← ht, splitNames_separator] at hx
        rw [hlevel] at hw
        obtain ⟨names, hnames, rfl⟩ := hmap hx
        have hrest : Apart 0 t w := fun hzero part rest hpart hrest heq hsuffix =>
          hapart (by rwa [hlevel]) part rest hpart hrest heq
            (ht ▸ hsuffix.trans (List.suffix_append separator t))
        rw [← ht, List.append_assoc, splitNames_separator, ih t.length hlt hrest hnames hw rfl,
          glue_nil_cons (splitNames_ne_nil hnames)]
        rfl
      · rw [splitNames_cons fun hdepth _ _ =>
          ⟨hnarrow hdepth, fun h => hseparator ⟨hdepth, h⟩⟩] at hx
        obtain ⟨names, hnames, rfl⟩ := hmap hx
        rw [level_cons, ← Int.add_assoc] at hw
        have hrest : Apart (depth + rise c) s w := fun hzero part rest hpart hrest heq hsuffix =>
          hapart (by rwa [level_cons, ← Int.add_assoc]) part rest hpart hrest heq
            (hsuffix.trans (List.suffix_cons c s))
        have hlonger : depth = 0 → c ≠ '{' → c ≠ '}' →
            c.utf8Size = 1 ∧ ¬separator <+: c :: (s ++ w) := by
          refine fun hdepth _ _ => ⟨hnarrow hdepth, fun ⟨behind, hbehind⟩ => ?_⟩
          rw [← List.cons_append] at hbehind
          rcases List.append_eq_append_iff.1 hbehind with ⟨t, heq, _⟩ | ⟨rest, heq, hrest⟩
          · exact hseparator ⟨hdepth, heq ▸ List.prefix_append separator t⟩
          · -- the separator begins with the whole text in front of the place
            have hlevel : level (c :: s) = 0 := by
              refine level_eq_zero fun d hd => rise_separator d ?_
              rw [heq]
              exact List.mem_append_left rest hd
            rcases eq_or_ne rest [] with rfl | hne
            · rw [List.append_nil] at heq
              exact hseparator ⟨hdepth, heq ▸ List.prefix_refl separator⟩
            · refine hapart (by rw [hdepth, hlevel, Int.add_zero]) (c :: s) rest (by simp) hne
                heq.symm (List.suffix_refl _) ?_
              rw [hrest]
              exact List.prefix_append rest behind
        rw [List.cons_append, splitNames_cons hlonger,
          ih s.length (Nat.lt_succ_self _) hrest hnames hw rfl,
          glue_consHead c (splitNames_ne_nil hnames)]
        rfl

theorem hasWide_append {depth : Int} {x w : Text} :
    HasWide depth (x ++ w) ↔ HasWide depth x ∨ HasWide (depth + level x) w := by
  induction x generalizing depth with
  | nil => simp [not_hasWide_nil]
  | cons c x ih =>
    rw [List.cons_append, hasWide_cons, hasWide_cons, ih, level_cons, or_assoc, Int.add_assoc]

/-- Blanks are no separator. -/
theorem splitNames_blanks {depth : Int} {m : Text} (hm : ∀ c ∈ m, c.isBlank)
    (hnarrow : ¬HasWide depth m) : splitNames depth m = .ok [m] := by
  induction m with
  | nil => exact splitNames_nil
  | cons c m ih =>
    obtain ⟨hc, hm⟩ := List.forall_mem_cons.1 hm
    obtain ⟨hopen, hclose, _⟩ := not_brace_of_isBlank hc
    rw [hasWide_cons, rise, if_neg hopen, if_neg hclose, Int.add_zero, not_or] at hnarrow
    have hsize : depth = 0 → c.utf8Size = 1 := by
      have := c.utf8Size_pos
      omega
    have hseparator : ¬separator <+: c :: m := by
      rintro ⟨t, ht⟩
      have hletter : 'a' ∈ separator ∧ ¬ Char.isBlank 'a' := by
        rw [separator_eq]
        decide
      have ha : 'a' ∈ c :: m := ht ▸ List.mem_append_left t hletter.1
      rcases List.mem_cons.1 ha with rfl | ha
      · exact hletter.2 hc
      · exact hletter.2 (hm 'a' ha)
    rw [splitNames_cons fun hdepth _ _ => ⟨hsize hdepth, hseparator⟩, rise, if_neg hopen,
      if_neg hclose, Int.add_zero, ih hm hnarrow.2]
    rfl

/-- Where a separator can be cut: in front of its last space, behind its first one, or between two
characters that are no blanks. -/
theorem separator_cut {part rest : Text} (hpart : part ≠ []) (hrest : rest ≠ [])
    (heq : part ++ rest = separator) :
    (part = (" and" : Text) ∧ rest = (" " : Text) ∨ ∃ c ∈ rest.head?, ¬c.isBlank) ∧
      (part = (" " : Text) ∧ rest = ("and " : Text) ∨ ∃ c ∈ part.getLast?, ¬c.isBlank) := by
  have hcuts : ∀ n ∈ [1, 2, 3, 4],
      (separator.take n = (" and" : Text) ∧ separator.drop n = (" " : Text) ∨
        (separator.drop n).head?.any (!·.isBlank)) ∧
      (separator.take n = (" " : Text) ∧ separator.drop n = ("and " : Text) ∨
        (separator.take n).getLast?.any (!·.isBlank)) := by
    simp only [separator_eq, ofString_eq]
    decide
  have hlength : part.length + rest.length = 5 := by
    rw [← List.length_append, heq, separator_eq]
    rfl
  have hn : part.length ∈ [1, 2, 3, 4] := by
    have := List.length_pos_iff.2 hpart
    have := List.length_pos_iff.2 hrest
    simp only [List.mem_cons, List.not_mem_nil, or_false]
    omega
  have hcut := hcuts part.length hn
  rw [← heq, List.take_left, List.drop_left] at hcut
  simpa [Option.any_eq_true] using hcut

/-- No separator is cut in front of a blank, unless it is the last space of one. -/
theorem apart_blank {x w : Text} (hblank : ∀ c ∈ w.head?, c.isBlank)
    (h : ¬(level x = 0 ∧ (" and" : Text) <:+ x ∧ w.head? = some ' ')) : Apart 0 x w := by
  rw [Apart, Int.zero_add]
  rintro hlevel part rest hpart hrest heq hsuffix ⟨t, ht⟩
  have hhead : w.head? = rest.head? := by
    rw [← ht, List.head?_append_of_ne_nil rest hrest]
  rcases (separator_cut hpart hrest heq).1 with ⟨rfl, rfl⟩ | ⟨c, hc, hletter⟩
  · exact h ⟨hlevel, hsuffix, hhead.trans (by simp)⟩
  · exact hletter (hblank c (hhead ▸ hc))

/-- No separator is cut behind a blank, unless it is the first space of one. -/
theorem apart_behind_blank {depth : Int} {x w : Text} (hblank : ∀ c ∈ x.getLast?, c.isBlank)
    (h : ¬(depth + level x = 0 ∧ ("and " : Text) <+: w ∧ x.getLast? = some ' ')) :
    Apart depth x w := by
  rintro hlevel part rest hpart hrest heq ⟨t, ht⟩ hprefix
  have hlast : x.getLast? = part.getLast? := by
    rw [← ht, List.getLast?_append_of_ne_nil t hpart]
  rcases (separator_cut hpart hrest heq).2 with ⟨rfl, rfl⟩ | ⟨c, hc, hletter⟩
  · exact h ⟨hlevel, hprefix, hlast.trans (by simp)⟩
  · exact hletter (hblank c (hlast ▸ hc))

/-- No separator outside braces reaches from `x` into `m` or from `m` into `y`. -/
structure Loose (x m y : Text) : Prop where
  front : Apart 0 x (m ++ y)
  back : Apart (level x) m y

/-- Blanks in an author list may be laid out in any way where no separator reaches into them and
they cannot join what is no blank. -/
theorem authorsOfList_loose {x y m m' : Text} (hm : ∀ c ∈ m, c.isBlank) (hm' : ∀ c ∈ m', c.isBlank)
    (h : Loose x m y) (h' : Loose x m' y) (hnarrow : ¬HasWide 0 (x ++ (m ++ y)))
    (hnarrow' : ¬HasWide 0 (x ++ (m' ++ y)))
    (hwhere : m ≠ [] ∧ m' ≠ [] ∨ (∀ c ∈ x.getLast?, c.isBlank) ∨ ∀ c ∈ y.head?, c.isBlank) :
    authorsOfList (x ++ (m ++ y)) = authorsOfList (x ++ (m' ++ y)) := by
  rw [hasWide_append, hasWide_append, not_or, not_or, level_blanks hm, Int.add_zero,
    Int.zero_add] at hnarrow
  rw [hasWide_append, hasWide_append, not_or, not_or, level_blanks hm', Int.add_zero,
    Int.zero_add] at hnarrow'
  obtain ⟨xs, hxs⟩ := ((splitNames_outcome 0 x).resolve_left fun h => hnarrow.1 h.1).2
  obtain ⟨ys, hys⟩ := ((splitNames_outcome (level x) y).resolve_left fun h => hnarrow.2.2 h.1).2
  have hparts {r : Text} (hr : ∀ c ∈ r, c.isBlank) (hsize : ¬HasWide (level x) r)
      (hloose : Loose x r y) : splitNames 0 (x ++ (r ++ y)) = .ok (xs.dropLast ++
        (xs.getLast?.getD [] ++ (r ++ ys.head?.getD [])) :: ys.tail) := by
    have hbehind : splitNames (level x + level r) y = .ok ys := by
      rwa [level_blanks hr, Int.add_zero]
    have hback := splitNames_append hloose.back (splitNames_blanks hr hsize) hbehind
    exact splitNames_append hloose.front hxs (by rwa [Int.zero_add])
  change (splitNames 0 _).map authorsOfNames = (splitNames 0 _).map authorsOfNames
  rw [hparts hm hnarrow.2.1 h, hparts hm' hnarrow'.2.1 h']
  refine congrArg Except.ok (authorsOfNames_blanks hm hm' _ _ (hwhere.imp_right (Or.imp ?_ ?_)))
  · intro hx c hc
    obtain ⟨t, ht⟩ := (splitNames_join hxs).2 ▸ suffix_join separator xs
    refine hx c ?_
    rw [← ht, List.getLast?_append, hc]
    rfl
  · intro hy c hc
    obtain ⟨t, ht⟩ := (splitNames_join hys).2 ▸ prefix_join separator ys
    refine hy c ?_
    rw [← ht, List.head?_append, hc]
    rfl

/-- The division of an author list does not tell two runs of blanks between `x` and `y` apart.
Outside braces, both have a wide blank or none does; behind a word `and` both begin with a space or
none does; in front of such a word both end with a space or none does; and between two such words
both are one space or none is. -/
structure SplitAlike (x g g' y : Text) : Prop where
  wide : HasWide (level x) g ↔ HasWide (level x) g'
  behind : level x = 0 → (" and" : Text) <:+ x → (g.head? = some ' ' ↔ g'.head? = some ' ')
  before : level x = 0 → ("and " : Text) <+: y → (g.getLast? = some ' ' ↔ g'.getLast? = some ' ')
  between : level x = 0 → (" and" : Text) <:+ x → ("and " : Text) <+: y → (g = [' '] ↔ g' = [' '])

theorem hasWide_run {x g g' : Text} (hg : IsRun g) (hg' : IsRun g')
    (h : HasWide (level x) g ↔ HasWide (level x) g') (y : Text) :
    HasWide 0 (x ++ (g ++ y)) ↔ HasWide 0 (x ++ (g' ++ y)) := by
  simp only [hasWide_append, level_blanks hg.2, level_blanks hg'.2, Int.zero_add, h]

/-- A separator outside braces that begins in front of `r` has its last space there. -/
def EndsIn (x r : Text) : Prop :=
  level x = 0 ∧ (" and" : Text) <:+ x ∧ r.head? = some ' '

/-- A separator outside braces that ends behind `r` has its first space there. -/
def BeginsIn (x r y : Text) : Prop :=
  level x = 0 ∧ ("and " : Text) <+: y ∧ r.getLast? = some ' '

/-- A run of blanks without the spaces that belong to separators is loose. -/
theorem exists_loose {x y r pre post : Text} (hr : IsRun r)
    (hpre : EndsIn x r ∧ pre = [' '] ∨ ¬EndsIn x r ∧ pre = [])
    (hpost : BeginsIn x r y ∧ post = [' '] ∨ ¬BeginsIn x r y ∧ post = [])
    (hone : EndsIn x r → BeginsIn x r y → r ≠ [' ']) :
    ∃ m, r = pre ++ (m ++ post) ∧ Loose (x ++ pre) m (post ++ y) := by
  have hlevel : level (x ++ pre) = level x := by
    rcases hpre with ⟨_, rfl⟩ | ⟨_, rfl⟩ <;> simp [rise]
  have hletter {t : Text} (ht : ∀ c ∈ t.head?, c.isBlank) : ¬("and " : Text) <+: t := by
    rintro ⟨w, rfl⟩
    have ha : ("and " : Text).head? = some 'a' := by simp
    have hblank := ht 'a' (by rw [List.head?_append, ha]; rfl)
    exact absurd hblank (by decide)
  obtain ⟨t, ht⟩ : ∃ t, r = pre ++ t := by
    rcases hpre with ⟨hends, rfl⟩ | ⟨_, rfl⟩
    · exact List.head?_eq_some_iff.1 hends.2.2
    · exact ⟨r, rfl⟩
  obtain ⟨m, rfl⟩ : ∃ m, t = m ++ post := by
    rcases hpost with ⟨hbegins, rfl⟩ | ⟨_, rfl⟩
    · refine List.getLast?_eq_some_iff.1 ?_
      have hne : t ≠ [] := by
        rintro rfl
        rcases hpre with ⟨hends, rfl⟩ | ⟨_, rfl⟩
        · exact hone hends hbegins ht
        · exact hr.1 ht
      rw [← hbegins.2.2, ht, List.getLast?_append_of_ne_nil pre hne]
    · exact ⟨t, (List.append_nil t).symm⟩
  have hblank : ∀ c ∈ m ++ post, c.isBlank := fun c hc => hr.2 c (ht ▸ List.mem_append_right pre hc)
  have hmiddle : ∀ c ∈ m, c.isBlank := fun c hc => hblank c (List.mem_append_left post hc)
  have hbehind : level x = 0 → r.getLast? = some ' ' → ¬("and " : Text) <+: post ++ y := by
    intro hzero hlast
    rcases hpost with ⟨_, rfl⟩ | ⟨hbegins, rfl⟩
    · exact hletter (by simp; decide)
    · exact fun hand => hbegins ⟨hzero, hand, hlast⟩
  refine ⟨m, ht, ?_, apart_behind_blank (fun c hc => hmiddle c (List.mem_of_getLast? hc)) ?_⟩
  · rw [← List.append_assoc]
    rcases hpre with ⟨hends, rfl⟩ | ⟨hends, rfl⟩
    · refine apart_behind_blank (by simp; decide) fun h => ?_
      by_cases hnil : m ++ post = []
      · rw [hnil] at h ht
        rw [(List.append_eq_nil_iff.1 hnil).2] at hbehind
        exact hbehind hends.1 (by rw [ht]; rfl) h.2.1
      · refine hletter (fun c hc => hblank c ?_) h.2.1
        rw [List.head?_append_of_ne_nil _ hnil] at hc
        exact List.mem_of_head? hc
    · rw [List.append_nil]
      rw [List.nil_append] at ht
      rw [← ht]
      refine apart_blank (fun c hc => hr.2 c ?_) ?_
      all_goals rw [List.head?_append_of_ne_nil _ hr.1] at *
      · exact List.mem_of_head? hc
      · exact hends
  · rw [level_blanks hmiddle, Int.add_zero, hlevel]
    rintro ⟨hzero, hand, hlast⟩
    have hne : m ≠ [] := by
      rintro rfl
      cases hlast
    refine hbehind hzero ?_ hand
    rcases hpost with ⟨hbegins, rfl⟩ | ⟨_, rfl⟩
    · exact hbegins.2.2
    · rw [ht, List.append_nil, List.getLast?_append_of_ne_nil pre hne, hlast]

/-- Two runs of blanks in an author list that the division does not tell apart give the same
authors. -/
theorem authorsOfList_run {x y g g' : Text} (hg : IsRun g) (hg' : IsRun g')
    (h : SplitAlike x g g' y) : authorsOfList (x ++ (g ++ y)) = authorsOfList (x ++ (g' ++ y)) := by
  have hwide := hasWide_run hg hg' h.wide y
  by_cases hany : HasWide 0 (x ++ (g ++ y))
  · have hbreak {s : Text} (hs : HasWide 0 s) : authorsOfList s = .error .splitCharacter := by
      rw [authorsOfList, ((splitNames_outcome 0 s).resolve_right fun h => h.1 hs).2]
      rfl
    rw [hbreak hany, hbreak (hwide.1 hany)]
  · have hnarrow := hwide.not.1 hany
    have hends : EndsIn x g ↔ EndsIn x g' :=
      and_congr_right fun hlevel => and_congr_right fun hand => h.behind hlevel hand
    have hbegins : BeginsIn x g y ↔ BeginsIn x g' y :=
      and_congr_right fun hlevel => and_congr_right fun hand => h.before hlevel hand
    by_cases hone : EndsIn x g ∧ BeginsIn x g y ∧ g = [' ']
    · obtain ⟨hend, hbegin, rfl⟩ := hone
      rw [(h.between hend.1 hend.2.1 hbegin.2.1).1 rfl]
    · have hone' : ¬(EndsIn x g' ∧ BeginsIn x g' y ∧ g' = [' ']) := by
        rintro ⟨hend, hbegin, hg'⟩
        exact hone ⟨hends.2 hend, hbegins.2 hbegin, (h.between hend.1 hend.2.1 hbegin.2.1).2 hg'⟩
      obtain ⟨pre, hpre⟩ : ∃ pre : Text, EndsIn x g ∧ pre = [' '] ∨ ¬EndsIn x g ∧ pre = [] := by
        by_cases hend : EndsIn x g
        · exact ⟨_, .inl ⟨hend, rfl⟩⟩
        · exact ⟨_, .inr ⟨hend, rfl⟩⟩
      obtain ⟨post, hpost⟩ :
          ∃ post : Text, BeginsIn x g y ∧ post = [' '] ∨ ¬BeginsIn x g y ∧ post = [] := by
        by_cases hbegin : BeginsIn x g y
        · exact ⟨_, .inl ⟨hbegin, rfl⟩⟩
        · exact ⟨_, .inr ⟨hbegin, rfl⟩⟩
      obtain ⟨m, hm, hloose⟩ := exists_loose hg hpre hpost fun h h' he => hone ⟨h, h', he⟩
      obtain ⟨m', hm', hloose'⟩ := exists_loose hg' (by rwa [← hends]) (by rwa [← hbegins])
        fun h h' he => hone' ⟨h, h', he⟩
      have hsame {r m : Text} (hm : r = pre ++ (m ++ post)) :
          x ++ (r ++ y) = (x ++ pre) ++ (m ++ (post ++ y)) := by
        simp only [hm, List.append_assoc]
      have hinner {r m : Text} (hr : IsRun r) (hm : r = pre ++ (m ++ post)) :
          ∀ c ∈ m, c.isBlank :=
        fun c hc => hr.2 c (hm ▸ List.mem_append_right pre (List.mem_append_left post hc))
      rw [hsame hm] at hany
      rw [hsame hm'] at hnarrow
      rw [hsame hm, hsame hm']
      refine authorsOfList_loose (hinner hg hm) (hinner hg' hm') hloose hloose' hany hnarrow ?_
      rcases hpre with ⟨_, rfl⟩ | ⟨_, rfl⟩
      · exact .inr (.inl (by simp; decide))
      · rcases hpost with ⟨_, rfl⟩ | ⟨_, rfl⟩
        · exact .inr (.inr (by simp; decide))
        · rw [List.nil_append, List.append_nil] at hm hm'
          exact .inl ⟨hm ▸ hg.1, hm' ▸ hg'.1⟩

end Bibliography.Bibtex

end TexCatalog
