import TexCatalog.Proofs.BalancedGroups
import TexCatalog.Proofs.TrimmedText
import TexCatalog.Source.Split

/-!
# Parts at brace depth zero

A text is divided at a separator where no brace is open and no backslash stands in front of it. If
the pieces of a text end at such places and hold no separator at one, they are the parts again, and
blanks around them do no harm.
-/

namespace TexCatalog

namespace Text

def spaced (sep : Text) : Text := ' ' :: (sep ++ [' '])

theorem join_spaced (sep piece next : Text) (more : List Text) :
    join (spaced sep) (piece :: next :: more) =
      piece ++ ' ' :: (sep ++ ' ' :: join (spaced sep) (next :: more)) := by
  simp [join, spaced]

/-- A part without spaces that is in a list of pieces, with separators between spaces, is in one of
the pieces or in the separator. -/
theorem exists_infix_of_join {part sep : Text} (hpart : ' ' ∉ part) (hne : part ≠ [])
    (hsep : ¬part <:+: sep) {pieces : List Text} (h : part <:+: join (spaced sep) pieces) :
    ∃ piece ∈ pieces, part <:+: piece := by
  induction pieces with
  | nil => exact absurd (List.infix_nil.1 h) hne
  | cons piece more ih =>
    cases more with
    | nil => exact ⟨piece, List.mem_singleton_self piece, h⟩
    | cons next more =>
      rw [join_spaced, infix_append_cons_iff hpart, infix_append_cons_iff hpart] at h
      rcases h with hhere | hbetween | hmore
      · exact ⟨piece, List.mem_cons_self .., hhere⟩
      · exact absurd hbetween hsep
      · obtain ⟨found, hfound, hinfix⟩ := ih hmore
        exact ⟨found, List.mem_cons_of_mem _ hfound, hinfix⟩

/-- Blanks around a text hold no part without blanks. -/
theorem infix_trim_iff {part : Text} (hpart : ∀ c ∈ part, ¬c.isBlank) (hne : part ≠ []) (t : Text) :
    part <:+: trim t ↔ part <:+: t := by
  refine ⟨fun h => h.trans (trim_piece t), fun h => ?_⟩
  obtain ⟨gap, hgap, hend⟩ := exists_trim_append t
  have hblank {c : Char} (hc : c.isBlank) : c ∉ part := fun hmem => hpart c hmem hc
  have hnil : ¬part <:+: [] := fun h => hne (List.infix_nil.1 h)
  have hfront {front s : Text} (hall : ∀ c ∈ front, c.isBlank) (h : part <:+: front ++ s) :
      part <:+: s := by
    induction front with
    | nil => exact h
    | cons c front ih =>
      rw [List.forall_mem_cons] at hall
      rw [List.cons_append, ← List.nil_append (c :: _), infix_append_cons_iff (hblank hall.1)] at h
      exact ih hall.2 (h.resolve_left hnil)
  have hstart : part <:+: trim t ++ gap := by
    rw [← hend]
    have ht : t.takeWhile Char.isBlank ++ trimStart t = t := List.takeWhile_append_dropWhile
    rw [← ht] at h
    exact hfront (List.all_eq_true.1 List.all_takeWhile) h
  cases gap with
  | nil => rwa [List.append_nil] at hstart
  | cons c gap =>
    rw [List.forall_mem_cons] at hgap
    rw [infix_append_cons_iff (hblank hgap.1)] at hstart
    refine hstart.resolve_right fun hbehind => hnil (hfront hgap.2 ?_)
    rwa [List.append_nil]

end Text

namespace Source

open Text

theorem splitFrom_ne_nil (sep : Text) (skip depth : Nat) (t : Text) :
    splitFrom sep skip depth t ≠ [] := by
  fun_induction splitFrom sep skip depth t with
  | case1 | case5 | case6 | case7 => exact List.cons_ne_nil _ _
  | case2 _ _ _ _ ih => exact ih
  | case3 | case4 | case8 | case9 => exact consHead_ne_nil _ _

theorem splitFrom_skip (sep t r : Text) (depth : Nat) :
    splitFrom sep t.length depth (t ++ r) = splitFrom sep 0 depth r := by
  induction t with
  | nil => rfl
  | cons c t ih => rw [List.cons_append, List.length_cons, splitFrom, ih]

/-- How many braces are open at a place of a text, and whether a backslash in front of it makes one
unit with what follows. A closing brace without a partner is ignored. -/
structure Nesting where
  braces : Nat
  escaped : Bool
  deriving DecidableEq

namespace Nesting

def top : Nesting := ⟨0, false⟩

def step (n : Nesting) (c : Char) : Nesting :=
  if n.escaped then { n with escaped := false }
  else if c = '\\' then { n with escaped := true }
  else if c = '{' then { n with braces := n.braces + 1 }
  else if c = '}' then { n with braces := n.braces - 1 }
  else n

def behind (n : Nesting) (t : Text) : Nesting := t.foldl step n

@[simp] theorem behind_nil (n : Nesting) : n.behind [] = n := rfl

@[simp] theorem behind_cons (n : Nesting) (c : Char) (t : Text) :
    n.behind (c :: t) = (n.step c).behind t := rfl

theorem behind_append (n : Nesting) (t s : Text) : n.behind (t ++ s) = (n.behind t).behind s :=
  List.foldl_append

section

variable (depth : Nat)

@[simp] theorem step_backslash : step ⟨depth, false⟩ '\\' = ⟨depth, true⟩ := rfl

@[simp] theorem step_open : step ⟨depth, false⟩ '{' = ⟨depth + 1, false⟩ := rfl

@[simp] theorem step_close : step ⟨depth, false⟩ '}' = ⟨depth - 1, false⟩ := rfl

@[simp] theorem step_escaped (c : Char) : step ⟨depth, true⟩ c = ⟨depth, false⟩ := rfl

theorem step_char {c : Char} (h : c ∉ ("\\\x7b\x7d" : Text)) :
    step ⟨depth, false⟩ c = ⟨depth, false⟩ := by
  simp only [ofString_eq, String.reduceToList, List.mem_cons, List.not_mem_nil, or_false,
    not_or] at h
  simp [step, h]

theorem behind_plain {t : Text} (h : ∀ c ∈ t, c ∉ ("\\\x7b\x7d" : Text)) :
    behind ⟨depth, false⟩ t = ⟨depth, false⟩ := by
  induction t with
  | nil => rfl
  | cons c t ih =>
    rw [List.forall_mem_cons] at h
    rw [behind_cons, step_char depth h.1, ih h.2]

end

end Nesting

def TopLevel (t : Text) : Prop := Nesting.top.behind t = Nesting.top

instance (t : Text) : Decidable (TopLevel t) := inferInstanceAs (Decidable (_ = _))

def Unparted (sep t : Text) : Prop := ∀ u v, u ++ v = t → TopLevel u → ¬sep <+: v

instance (sep t : Text) : Decidable (Unparted sep t) :=
  decidable_of_iff (∀ u ∈ t.inits, TopLevel u → ¬sep <+: t.drop u.length)
    ⟨fun h u v huv => by
      subst huv
      simpa using h u ((List.mem_inits ..).2 (List.prefix_append u v)),
    fun h u hu => by
      obtain ⟨v, rfl⟩ := (List.mem_inits ..).1 hu
      simpa using h u v rfl⟩

/-- A character that is not in a separator keeps apart what stands on its sides. -/
theorem Unparted.append_cons {sep t s : Text} {c : Char} (hsep : c ∉ sep)
    (hc : c ∉ ("\\\x7b\x7d" : Text)) (htop : TopLevel t) (ht : Unparted sep t)
    (hs : Unparted sep s) : Unparted sep (t ++ c :: s) := by
  intro u v huv hu
  rcases List.append_eq_append_iff.1 huv with ⟨inside, rfl, rfl⟩ | ⟨beyond, rfl, hbeyond⟩
  · rw [prefix_append_cons_iff hsep]
    exact ht u inside rfl hu
  · cases beyond with
    | nil =>
      rw [List.nil_append] at hbeyond
      rw [← hbeyond, ← List.nil_append (c :: s), prefix_append_cons_iff hsep]
      exact ht t [] (List.append_nil t) htop
    | cons d beyond =>
      obtain ⟨rfl, rfl⟩ := List.cons.inj hbeyond
      refine hs beyond v rfl ?_
      have hbehind := Nesting.behind_append .top t (c :: beyond)
      rw [hu, htop, Nesting.behind_cons, Nesting.top, Nesting.step_char 0 hc] at hbehind
      exact hbehind.symm

/-- Joining pieces at another separator makes no place to part them. -/
theorem Unparted.join {sep other : Text} (hspace : ' ' ∉ sep) (hne : sep ≠ [])
    (hother : TopLevel other ∧ Unparted sep other) {pieces : List Text}
    (h : ∀ piece ∈ pieces, TopLevel piece ∧ Unparted sep piece) :
    Unparted sep (Text.join (spaced other) pieces) := by
  have hplain : ' ' ∉ ("\\\x7b\x7d" : Text) := by decide_cbv
  induction pieces with
  | nil =>
    intro u v huv _ hbegins
    rw [(List.append_eq_nil_iff.1 huv).2] at hbegins
    exact hne (List.prefix_nil.1 hbegins)
  | cons piece more ih =>
    obtain ⟨⟨hpiece, hwhole⟩, hmore⟩ := List.forall_mem_cons.1 h
    cases more with
    | nil => exact hwhole
    | cons next more =>
      rw [join_spaced]
      exact .append_cons hspace hplain hpiece hwhole
        (.append_cons hspace hplain hother.1 hother.2 (ih hmore))

namespace BraceBalanced

variable {t s : Text}

theorem behind (h : BraceBalanced t) (depth : Nat) :
    Nesting.behind ⟨depth, false⟩ t = ⟨depth, false⟩ := by
  induction h generalizing depth with
  | nil => rfl
  | char hc _ ih => rw [Nesting.behind_cons, Nesting.step_char depth hc, ih]
  | escaped c _ ih => rw [Nesting.behind_cons, Nesting.behind_cons, Nesting.step_backslash,
      Nesting.step_escaped, ih]
  | group _ _ iht ihs =>
    rw [Nesting.behind_cons, Nesting.step_open, Nesting.behind_append, iht, Nesting.behind_cons,
      Nesting.step_close, Nat.add_sub_cancel, ihs]

theorem topLevel (h : BraceBalanced t) : TopLevel t := h.behind 0

theorem join {sep : Text} (hsep : BraceBalanced sep) {pieces : List Text}
    (h : ∀ piece ∈ pieces, BraceBalanced piece) : BraceBalanced (Text.join sep pieces) :=
  join_of_append .nil hsep (fun _ _ => append) h

end BraceBalanced

/-! ### Division -/

def Separates (sep : Text) : Prop := sep ≠ [] ∧ ∀ c ∈ sep, ¬c.isBlank ∧ c ≠ '{' ∧ c ≠ '}'

instance (sep : Text) : Decidable (Separates sep) :=
  decidable_of_iff (sep ≠ [] ∧ sep.all fun c => ¬c.isBlank ∧ c ≠ '{' ∧ c ≠ '}')
    (by simp [Separates])

theorem Separates.head {sep : Text} (h : Separates sep) :
    ∀ c ∈ sep.head?, c ≠ '{' ∧ c ≠ '}' :=
  fun c hc => (h.2 c (List.mem_of_mem_head? hc)).2

section

variable {sep : Text}

/-- What holds no separator goes in front of the first part of what stands behind it. -/
theorem splitFrom_append : ∀ {t : Text} {depth inside : Nat} (r : Text),
    Nesting.behind ⟨depth, false⟩ t = ⟨inside, false⟩ →
    (∀ u v, u ++ v = t → v ≠ [] → Nesting.behind ⟨depth, false⟩ u = Nesting.top → ¬sep <+: v ++ r) →
    splitFrom sep 0 depth (t ++ r) = t.foldr consHead (splitFrom sep 0 inside r)
  | [], depth, inside, r, hbehind, _ => by
    cases hbehind
    rfl
  | c :: t, depth, inside, r, hbehind, hfree => by
    have hmore {depth' : Nat} (hstep : Nesting.step ⟨depth, false⟩ c = ⟨depth', false⟩) :
        splitFrom sep 0 depth' (t ++ r) = t.foldr consHead (splitFrom sep 0 inside r) := by
      rw [Nesting.behind_cons, hstep] at hbehind
      refine splitFrom_append r hbehind fun u v huv hv htop => ?_
      exact hfree (c :: u) v (by rw [List.cons_append, huv]) hv
        (by rw [Nesting.behind_cons, hstep, htop])
    rw [List.cons_append, splitFrom.eq_def, List.foldr_cons]
    dsimp only
    by_cases hopen : c = '{'
    · rw [if_pos hopen, hmore (by rw [hopen, Nesting.step_open])]
    · by_cases hclose : c = '}'
      · rw [if_neg hopen, if_pos hclose, hmore (by rw [hclose, Nesting.step_close])]
      · have hnone : ¬(depth = 0 ∧ sep.isPrefixOf (c :: (t ++ r)) = true) := by
          rintro ⟨rfl, hbegins⟩
          exact hfree [] (c :: t) rfl (List.cons_ne_nil c t) rfl
            (List.isPrefixOf_iff_prefix.1 hbegins)
        rw [if_neg hopen, if_neg hclose, if_neg hnone]
        by_cases hescape : c = '\\'
        · rw [if_pos hescape]
          subst hescape
          cases t with
          | nil => simp at hbehind
          | cons d t =>
            rw [Nesting.behind_cons, Nesting.step_backslash, Nesting.behind_cons,
              Nesting.step_escaped] at hbehind
            have hbeyond := splitFrom_append (t := t) r hbehind fun u v huv hv htop =>
              hfree ('\\' :: d :: u) v (by rw [List.cons_append, List.cons_append, huv]) hv
                (by rw [Nesting.behind_cons, Nesting.step_backslash, Nesting.behind_cons,
                  Nesting.step_escaped, htop])
            simp only [List.cons_append, List.foldr_cons, hbeyond]
        · rw [if_neg hescape, hmore (Nesting.step_char depth (by simp [hescape, hopen, hclose]))]

variable (hsep : Separates sep)

include hsep

omit hsep in
/-- Where a separator stands that does not begin with a brace, a part ends. -/
theorem splitTopLevel_separator (hne : sep ≠ []) (hhead : ∀ c ∈ sep.head?, c ≠ '{' ∧ c ≠ '}')
    (r : Text) : splitTopLevel sep (sep ++ r) = [] :: splitTopLevel sep r := by
  obtain ⟨c, more, rfl⟩ := List.exists_cons_of_ne_nil hne
  obtain ⟨hopen, hclose⟩ := hhead c rfl
  have hhere : (c :: more).isPrefixOf (c :: (more ++ r)) = true :=
    List.isPrefixOf_iff_prefix.2 (List.prefix_append (c :: more) r)
  rw [splitTopLevel, List.cons_append, splitFrom.eq_def]
  dsimp only
  rw [if_neg hopen, if_neg hclose, if_pos ⟨rfl, hhere⟩]
  exact congrArg _ (splitFrom_skip (c :: more) more r 0)

theorem not_prefix_blank {c : Char} (hc : c.isBlank) (t : Text) : ¬sep <+: c :: t := by
  obtain ⟨d, more, rfl⟩ := List.exists_cons_of_ne_nil hsep.1
  intro hbegins
  rw [List.cons_prefix_cons] at hbegins
  exact (hsep.2 d (List.mem_cons_self ..)).1 (hbegins.1 ▸ hc)

theorem splitFrom_blanks {g : Text} (hg : ∀ c ∈ g, c.isBlank) (depth : Nat) (r : Text) :
    splitFrom sep 0 depth (g ++ r) = g.foldr consHead (splitFrom sep 0 depth r) := by
  have hplain : ∀ c ∈ g, c ∉ ("\\\x7b\x7d" : Text) := by
    intro c hc hmem
    have hblank := hg c hc
    simp only [ofString_eq, String.reduceToList, List.mem_cons, List.not_mem_nil, or_false] at hmem
    rcases hmem with rfl | rfl | rfl <;> exact absurd hblank (by decide)
  refine splitFrom_append r (Nesting.behind_plain depth hplain) fun u v huv hv _ => ?_
  obtain ⟨c, v, rfl⟩ := List.exists_cons_of_ne_nil hv
  exact not_prefix_blank hsep (hg c (huv ▸ List.mem_append_right u (List.mem_cons_self ..))) _

/-- A piece is a part with the blanks around it if a separator or nothing stands behind them. -/
theorem splitTopLevel_piece {piece g : Text} (hpiece : TopLevel piece)
    (hwhole : Unparted sep piece) (hg : ∀ c ∈ g, c.isBlank) (r : Text) :
    splitTopLevel sep (g ++ (piece ++ ' ' :: r)) =
      (g ++ piece ++ [' ']).foldr consHead (splitTopLevel sep r) := by
  have hspace : ∀ c ∈ ([' '] : Text), c.isBlank := by simp [Char.isBlank]
  have hnone : ' ' ∉ sep := fun h => (hsep.2 ' ' h).1 (by decide)
  rw [splitTopLevel, splitFrom_blanks hsep hg, splitFrom_append (' ' :: r) hpiece]
  · rw [← List.singleton_append, splitFrom_blanks hsep hspace, List.foldr_append, List.foldr_append]
    rfl
  · intro u v huv _ htop
    rw [prefix_append_cons_iff hnone]
    exact hwhole u v huv htop

theorem splitTopLevel_last {piece g : Text} (hpiece : TopLevel piece)
    (hwhole : Unparted sep piece) (hg : ∀ c ∈ g, c.isBlank) :
    splitTopLevel sep (g ++ piece) = [g ++ piece] := by
  have hend : splitFrom sep 0 0 (piece ++ []) = piece.foldr consHead (splitFrom sep 0 0 []) := by
    refine splitFrom_append [] hpiece fun u v huv _ htop => ?_
    rw [List.append_nil]
    exact hwhole u v huv htop
  rw [List.append_nil] at hend
  rw [splitTopLevel, splitFrom_blanks hsep hg, hend, splitFrom, foldr_consHead, foldr_consHead,
    List.append_nil]

/-- The parts of joined pieces are the pieces. -/
theorem splitTopLevel_join {pieces : List Text} (hne : pieces ≠ [])
    (h : ∀ piece ∈ pieces, TopLevel piece ∧ Unparted sep piece) :
    (splitTopLevel sep (join (spaced sep) pieces)).map trim = pieces.map trim := by
  have hrest {g : Text} (hg : ∀ c ∈ g, c.isBlank) :
      (splitTopLevel sep (g ++ join (spaced sep) pieces)).map trim = pieces.map trim := by
    induction pieces generalizing g with
    | nil => exact absurd rfl hne
    | cons piece more ih =>
      obtain ⟨⟨hpiece, hwhole⟩, hmore⟩ := List.forall_mem_cons.1 h
      cases more with
      | nil =>
        change (splitTopLevel sep (g ++ piece)).map trim = _
        rw [splitTopLevel_last hsep hpiece hwhole hg, List.map_singleton,
          trim_blanks_append hg]
        rfl
      | cons next more =>
        have hspace : ∀ c ∈ ([' '] : Text), c.isBlank := by simp [Char.isBlank]
        have hbehind := ih (List.cons_ne_nil next more) hmore hspace
        rw [List.singleton_append] at hbehind
        rw [join_spaced, splitTopLevel_piece hsep hpiece hwhole hg,
          splitTopLevel_separator hsep.1 hsep.head, foldr_consHead, List.append_nil, List.map_cons,
          List.map_cons, hbehind, trim_blanks hspace, trim_blanks_append hg]
  exact hrest (List.forall_mem_nil _)

omit hsep in
theorem map_trimEnd_consHead (c : Char) {xs ys : List Text} (hxs : xs ≠ []) (hys : ys ≠ [])
    (h : xs.map trimEnd = ys.map trimEnd) :
    (consHead c xs).map trimEnd = (consHead c ys).map trimEnd := by
  obtain ⟨x, xs, rfl⟩ := List.exists_cons_of_ne_nil hxs
  obtain ⟨y, ys, rfl⟩ := List.exists_cons_of_ne_nil hys
  rw [List.map_cons, List.map_cons, List.cons.injEq] at h
  have hx := trimEnd_append_trimEnd [c] x
  rw [h.1, trimEnd_append_trimEnd] at hx
  rw [consHead, consHead, List.map_cons, List.map_cons, h.2]
  exact congrArg (· :: _) hx.symm

theorem splitFrom_of_blanks {g : Text} (hg : ∀ c ∈ g, c.isBlank) (skip depth : Nat) :
    splitFrom sep skip depth g = [g.drop skip] := by
  induction g generalizing skip with
  | nil => rw [splitFrom, List.drop_nil]
  | cons c g ih =>
    cases skip with
    | zero =>
      have hall := splitFrom_blanks hsep hg depth []
      rwa [List.append_nil, splitFrom, foldr_consHead, List.append_nil] at hall
    | succ skip => exact ih (List.forall_mem_cons.1 hg).2 skip

/-- Blanks behind a text end its last part, and can be trimmed there. -/
theorem splitFrom_append_blanks {g : Text} (hg : ∀ c ∈ g, c.isBlank) (skip depth : Nat) (t : Text) :
    (splitFrom sep skip depth (t ++ g)).map trimEnd = (splitFrom sep skip depth t).map trimEnd := by
  have hblank {t : Text} (ht : ∀ c ∈ t, c.isBlank) : trimEnd t = [] := trimEnd_eq_nil.2 ht
  have hfront (t : Text) : sep.isPrefixOf (t ++ g) = sep.isPrefixOf t := by
    cases g with
    | nil => rw [List.append_nil]
    | cons b g =>
      exact isPrefixOf_append_cons fun h => (hsep.2 b h).1 (hg b (List.mem_cons_self ..))
  have hcons (c : Char) {t : Text} {depth : Nat}
      (h : (splitFrom sep 0 depth (t ++ g)).map trimEnd = (splitFrom sep 0 depth t).map trimEnd) :
      (consHead c (splitFrom sep 0 depth (t ++ g))).map trimEnd =
        (consHead c (splitFrom sep 0 depth t)).map trimEnd :=
    map_trimEnd_consHead c (splitFrom_ne_nil sep 0 depth (t ++ g))
      (splitFrom_ne_nil sep 0 depth t) h
  fun_induction splitFrom sep skip depth t with
  | case1 skip depth =>
    rw [List.nil_append, splitFrom_of_blanks hsep hg, List.map_singleton, List.map_singleton,
      hblank fun c hc => hg c (List.mem_of_mem_drop hc)]
    rfl
  | case2 skip depth c s ih => exact ih
  | case3 depth s ih =>
    rw [List.cons_append, splitFrom.eq_def]
    exact hcons _ ih
  | case4 depth s _ ih =>
    rw [List.cons_append, splitFrom.eq_def]
    exact hcons _ ih
  | case5 depth c s _ _ _ hlength => exact absurd (List.length_eq_zero_iff.1 hlength) hsep.1
  | case6 depth c s hopen hclose hbegins n hlength ih =>
    rw [List.cons_append, splitFrom.eq_def]
    dsimp only
    rw [if_neg hopen, if_neg hclose, ← List.cons_append, hfront, if_pos hbegins, hlength]
    exact congrArg ([] :: ·) ih
  | case7 depth hopen hclose hbegins =>
    rw [List.cons_append, splitFrom.eq_def]
    dsimp only
    rw [if_neg hopen, if_neg hclose, ← List.cons_append, hfront, if_neg hbegins, if_pos rfl]
    cases g with
    | nil => rfl
    | cons b g =>
      have hend : splitFrom sep 0 depth g = [g] :=
        splitFrom_of_blanks hsep (List.forall_mem_cons.1 hg).2 0 depth
      have hlast : trimEnd (b :: g) = [] := hblank hg
      have hslash := trimEnd_append_trimEnd ['\\'] (b :: g)
      rw [hlast] at hslash
      dsimp only [List.nil_append]
      rw [hend]
      exact congrArg ([·]) hslash.symm
  | case8 depth d s hopen hclose hbegins ih =>
    rw [List.cons_append, List.cons_append, splitFrom.eq_def]
    dsimp only
    rw [if_neg hopen, if_neg hclose, ← List.cons_append, ← List.cons_append, hfront,
      if_neg hbegins, if_pos rfl]
    exact map_trimEnd_consHead _ (consHead_ne_nil _ _) (consHead_ne_nil _ _) (hcons d ih)
  | case9 depth c s hopen hclose hbegins hescape ih =>
    rw [List.cons_append, splitFrom.eq_def]
    dsimp only
    rw [if_neg hopen, if_neg hclose, ← List.cons_append, hfront, if_neg hbegins, if_neg hescape]
    exact hcons c ih

/-- Blanks around a text are trimmed from its parts. -/
theorem map_trim_splitTopLevel_trim (t : Text) :
    (splitTopLevel sep (trim t)).map trim = (splitTopLevel sep t).map trim := by
  have hfront : (splitTopLevel sep t).map trim = (splitTopLevel sep (trimStart t)).map trim := by
    have hg : ∀ c ∈ t.takeWhile Char.isBlank, c.isBlank := List.all_eq_true.1 List.all_takeWhile
    have ht : t.takeWhile Char.isBlank ++ trimStart t = t := List.takeWhile_append_dropWhile
    obtain ⟨part, parts, hparts⟩ :=
      List.exists_cons_of_ne_nil (splitFrom_ne_nil sep 0 0 (trimStart t))
    conv_lhs => rw [splitTopLevel, ← ht, splitFrom_blanks hsep hg, hparts, foldr_consHead]
    rw [splitTopLevel, hparts, List.map_cons, List.map_cons, trim, trimStart_blanks hg]
    rfl
  obtain ⟨gap, hgap, ht⟩ := exists_trim_append t
  have hback := congrArg (List.map trim) (splitFrom_append_blanks hsep hgap 0 0 (trim t))
  rw [← ht, List.map_map, List.map_map] at hback
  simp only [Function.comp_def, trim_trimEnd] at hback
  exact (hfront.trans hback).symm

end

end Source

end TexCatalog
