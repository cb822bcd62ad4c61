import Mathlib.Data.List.Chain
import TexCatalog.Proofs.AuthorLists
import TexCatalog.Proofs.ProtectingBraces

/-!
# Cleaned values

What cleaning leaves of a value has single spaces, opening braces in front of commands only, and no
closing brace without a partner in front. A brace is judged by the backslash behind it or by the
braces that are left in front of it. Backslashes are never dropped, and squeezing puts no blank in
front of one. So a text of this form stays as it is, and a value is clean after it has been cleaned
once, whatever its braces are.
-/

namespace TexCatalog

namespace Text

/-! ### Single spaces -/

/-- No blank stands at an end or beside another one, and every blank is a space. -/
structure Tidy (t : Text) : Prop where
  front : ∀ c ∈ t.head?, ¬c.isBlank
  back : ∀ c ∈ t.getLast?, ¬c.isBlank
  apart : t.IsChain fun c d => ¬(c.isBlank ∧ d.isBlank)
  spaces : ∀ c ∈ t, c.isBlank → c = ' '

theorem tidy_nil : Tidy [] where
  front := by simp
  back := by simp
  apart := .nil
  spaces := List.forall_mem_nil _

theorem tidy_word {w : Text} (h : ∀ c ∈ w, ¬c.isBlank) : Tidy w where
  front c hc := h c (List.mem_of_mem_head? hc)
  back c hc := h c (List.mem_of_mem_getLast? hc)
  apart := by
    apply List.Pairwise.isChain
    exact List.pairwise_of_forall_mem_list fun c hc d _ hblank => h c hc hblank.1
  spaces c hc hblank := absurd hblank (h c hc)

theorem Tidy.append {t s : Text} (ht : Tidy t) (hs : Tidy s) (hnet : t ≠ []) (hnes : s ≠ []) :
    Tidy (t ++ ' ' :: s) where
  front := by
    rw [List.head?_append_of_ne_nil t hnet]
    exact ht.front
  back := by
    rw [List.append_cons, List.getLast?_append_of_ne_nil _ hnes]
    exact hs.back
  apart := by
    rw [List.isChain_append, List.isChain_cons]
    refine ⟨ht.apart, ⟨fun d hd hblank => hs.front d hd hblank.2, hs.apart⟩, ?_⟩
    exact fun c hc _ _ hblank => ht.back c hc hblank.1
  spaces := by
    rw [List.forall_mem_append, List.forall_mem_cons]
    exact ⟨ht.spaces, fun _ => rfl, hs.spaces⟩

/-- The end of a tidy text is tidy where no blank is in front. -/
theorem Tidy.suffix {t s : Text} (h : Tidy t) (hs : s <:+ t) (hfront : ∀ c ∈ s.head?, ¬c.isBlank) :
    Tidy s where
  front := hfront
  back c hc := by
    obtain ⟨r, rfl⟩ := hs
    have hne : s ≠ [] := by
      rintro rfl
      simp at hc
    exact h.back c (by rwa [List.getLast?_append_of_ne_nil r hne])
  apart := h.apart.suffix hs
  spaces c hc := h.spaces c (hs.subset hc)

theorem tidy_join {ws : List Text} (h : ∀ w ∈ ws, w ≠ [] ∧ ∀ c ∈ w, ¬c.isBlank) :
    Tidy (join [' '] ws) := by
  induction ws with
  | nil => exact tidy_nil
  | cons w more ih =>
    obtain ⟨⟨hne, hw⟩, hmore⟩ := List.forall_mem_cons.1 h
    cases more with
    | nil => exact tidy_word hw
    | cons next more =>
      have hrest : SingleSpaced (join [' '] (next :: more)) :=
        ⟨_, List.cons_ne_nil next more, hmore, rfl⟩
      rw [join_cons_cons, List.append_assoc]
      exact (tidy_word hw).append (ih hmore) hne hrest.ends.1

theorem tidy_squeeze (t : Text) : Tidy (squeeze t) := tidy_join fun _ => mem_words

theorem squeeze_blank {c : Char} (hc : c.isBlank) (s : Text) : squeeze (c :: s) = squeeze s := by
  have hwords : words (c :: s) = words s := words_append_blank hc [] s
  rw [squeeze, hwords, squeeze]

theorem squeeze_letter {c : Char} (hc : ¬c.isBlank) {s : Text} (hs : ∀ d ∈ s.head?, ¬d.isBlank) :
    squeeze (c :: s) = c :: squeeze s := by
  have hwords : words (c :: s) = consHead c (words s) := by
    cases s with
    | nil => exact words_word (List.cons_ne_nil c []) (List.forall_mem_singleton.2 hc)
    | cons d r =>
      obtain ⟨part, parts, hparts⟩ :=
        List.exists_cons_of_ne_nil (splitWhere_ne_nil Char.isBlank r)
      have hd : ¬d.isBlank := hs d rfl
      simp [words, splitWhere, hc, hd, hparts, consHead]
  rw [squeeze, hwords, join_consHead, squeeze]

theorem squeeze_gap {c d : Char} (hc : ¬c.isBlank) (hd : d.isBlank) (s : Text) :
    squeeze (c :: d :: s) = c :: if squeeze s = [] then [] else ' ' :: squeeze s := by
  have hwords : words (c :: d :: s) = [c] :: words s := by
    rw [← List.singleton_append, words_append_blank hd,
      words_word (List.cons_ne_nil c []) (List.forall_mem_singleton.2 hc), List.singleton_append]
  rw [squeeze, hwords, squeeze]
  cases hrest : words s with
  | nil => rfl
  | cons next more =>
    have hspaced : SingleSpaced (join [' '] (next :: more)) :=
      ⟨_, List.cons_ne_nil next more, hrest ▸ fun w => mem_words, rfl⟩
    rw [join_cons_cons, if_neg hspaced.ends.1]
    rfl

theorem Tidy.squeeze_eq : ∀ {t : Text}, Tidy t → squeeze t = t
  | [], _ => rfl
  | [c], h => squeeze_letter (h.front c rfl) fun _ hd => absurd hd (Option.not_mem_none _)
  | c :: d :: s, h => by
    have hc : ¬c.isBlank := h.front c rfl
    by_cases hd : d.isBlank
    · -- a single space, with a letter behind it
      have hspace : d = ' ' := h.spaces d (by simp) hd
      have hne : s ≠ [] := by
        rintro rfl
        exact h.back d rfl hd
      have hfront : ∀ e ∈ s.head?, ¬e.isBlank := by
        have hapart := (List.isChain_cons.1 (List.isChain_cons.1 h.apart).2).1
        exact fun e he hblank => hapart e he ⟨hd, hblank⟩
      have hs : squeeze s = s := (h.suffix (List.suffix_append [c, d] s) hfront).squeeze_eq
      rw [squeeze_gap hc hd, hs, if_neg hne, hspace]
    · have hfront : ∀ e ∈ (d :: s).head?, ¬e.isBlank := by simpa using hd
      have hs : squeeze (d :: s) = d :: s := (h.suffix (List.suffix_cons c _) hfront).squeeze_eq
      rw [squeeze_letter hc hfront, hs]

/-- A letter stays, and behind it no more than blanks come in front of the rest. -/
theorem exists_squeeze_cons {c : Char} (hc : ¬c.isBlank) (s : Text) :
    ∃ gap : Text, (∀ d ∈ gap, d.isBlank) ∧ squeeze (c :: s) = c :: (gap ++ squeeze s) := by
  by_cases hs : ∀ d ∈ s.head?, ¬d.isBlank
  · exact ⟨[], List.forall_mem_nil _, squeeze_letter hc hs⟩
  · push Not at hs
    obtain ⟨d, hhead, hd⟩ := hs
    obtain ⟨r, rfl⟩ := List.head?_eq_some_iff.1 hhead
    rw [squeeze_gap hc hd, squeeze_blank hd]
    split
    · next hnil => exact ⟨[], List.forall_mem_nil _, by rw [hnil, List.append_nil]⟩
    · exact ⟨[' '], List.forall_mem_singleton.2 rfl, rfl⟩

theorem head?_squeeze {t : Text} {c : Char} (h : t.head? = some c) (hc : ¬c.isBlank) :
    (squeeze t).head? = some c := by
  obtain ⟨s, rfl⟩ := List.head?_eq_some_iff.1 h
  obtain ⟨gap, _, hsqueeze⟩ := exists_squeeze_cons hc s
  rw [hsqueeze, List.head?_cons]

end Text

namespace Bibliography.Bibtex

open Text

/-! ### Braces around commands -/

/-- Where the groups of `kept` commands are open, each opening brace begins the group of a command
and each closing brace ends one. -/
inductive CommandBraces : Nat → Text → Prop
  | nil {kept : Nat} : CommandBraces kept []
  | char {kept : Nat} {c : Char} {s : Text} : c ≠ '{' → c ≠ '}' → CommandBraces kept s →
    CommandBraces kept (c :: s)
  | opening {kept : Nat} {s : Text} : s.head? = some '\\' → CommandBraces (kept + 1) s →
    CommandBraces kept ('{' :: s)
  | closing {kept : Nat} {s : Text} : CommandBraces kept s → CommandBraces (kept + 1) ('}' :: s)

theorem head?_dropBraces {s : Text} (h : s.head? = some '\\') (kept : Nat) :
    (dropBraces kept s).head? = some '\\' := by
  obtain ⟨r, rfl⟩ := List.head?_eq_some_iff.1 h
  rw [dropBraces_char (by decide) (by decide)]
  rfl

theorem commandBraces_dropBraces (kept : Nat) (s : Text) :
    CommandBraces kept (dropBraces kept s) := by
  fun_induction dropBraces kept s with
  | case1 kept => exact .nil
  | case2 kept s h ih => exact .opening (head?_dropBraces h _) ih
  | case3 kept s h ih => exact ih
  | case4 s h ih => exact ih
  | case5 s h kept ih => exact .closing ih
  | case6 kept c s hopen hclose ih => exact .char hopen hclose ih

namespace CommandBraces

variable {kept : Nat} {s : Text}

theorem dropBraces_eq (h : CommandBraces kept s) : dropBraces kept s = s := by
  induction h with
  | nil => rfl
  | char hopen hclose _ ih => rw [dropBraces_char hopen hclose, ih]
  | opening hslash _ ih => rw [dropBraces_cons, if_pos rfl, if_pos hslash, ih]
  | closing _ ih => exact congrArg ('}' :: ·) ih

theorem blanks {gap : Text} (hgap : ∀ c ∈ gap, c.isBlank) (h : CommandBraces kept s) :
    CommandBraces kept (gap ++ s) := by
  induction gap with
  | nil => exact h
  | cons c gap ih =>
    obtain ⟨hc, hrest⟩ := List.forall_mem_cons.1 hgap
    obtain ⟨hopen, hclose, _⟩ := not_brace_of_isBlank hc
    exact .char hopen hclose (ih hrest)

/-- Squeezing brings no blank between an opening brace and its backslash. -/
theorem squeeze (h : CommandBraces kept s) : CommandBraces kept (squeeze s) := by
  induction h with
  | nil => exact .nil
  | @char kept c s hopen hclose _ ih =>
    by_cases hc : c.isBlank
    · rw [squeeze_blank hc]
      exact ih
    · obtain ⟨gap, hgap, hsqueeze⟩ := exists_squeeze_cons hc s
      rw [hsqueeze]
      exact .char hopen hclose (ih.blanks hgap)
  | @opening kept s hslash _ ih =>
    have hhead : ∀ d ∈ s.head?, ¬d.isBlank := by
      rw [hslash]
      rintro _ ⟨⟩
      decide
    rw [squeeze_letter (by decide) hhead]
    exact .opening (head?_squeeze hslash (by decide)) ih
  | @closing kept s _ ih =>
    obtain ⟨gap, hgap, hsqueeze⟩ := exists_squeeze_cons (c := '}') (by decide) s
    rw [hsqueeze]
    exact .closing (ih.blanks hgap)

end CommandBraces

def OpensCommands (t : Text) : Prop := ∀ u v, t = u ++ '{' :: v → v.head? = some '\\'

/-- Where `depth` groups are open, no part in front closes more groups than are open. -/
def ClosesOpened (depth : Int) (t : Text) : Prop := ∀ u, u <+: t → 0 ≤ depth + level u

theorem opensCommands_cons {c : Char} {s : Text} :
    OpensCommands (c :: s) ↔ (c = '{' → s.head? = some '\\') ∧ OpensCommands s := by
  constructor
  · intro h
    refine ⟨fun hc => h [] s (by rw [hc, List.nil_append]), fun u v huv => h (c :: u) v ?_⟩
    rw [huv, List.cons_append]
  · rintro ⟨hfirst, hrest⟩ (_ | ⟨d, u⟩) v huv
    · obtain ⟨hc, hs⟩ := List.cons.inj huv
      exact hs ▸ hfirst hc
    · exact hrest u v (List.cons.inj huv).2

theorem ClosesOpened.nonneg {depth : Int} {s : Text} (h : ClosesOpened depth s) : 0 ≤ depth := by
  simpa using h [] (List.nil_prefix ..)

theorem closesOpened_nil {depth : Int} : ClosesOpened depth [] ↔ 0 ≤ depth := by
  simp [ClosesOpened]

theorem closesOpened_cons {depth : Int} {c : Char} {s : Text} :
    ClosesOpened depth (c :: s) ↔ 0 ≤ depth ∧ ClosesOpened (depth + rise c) s := by
  constructor
  · intro h
    refine ⟨h.nonneg, fun u hu => ?_⟩
    have hfront := h (c :: u) ((List.prefix_cons_inj c).2 hu)
    rwa [level_cons, ← Int.add_assoc] at hfront
  · rintro ⟨hdepth, hs⟩ u hu
    rcases List.prefix_cons_iff.1 hu with rfl | ⟨v, rfl, hv⟩
    · simpa using hdepth
    · rw [level_cons, ← Int.add_assoc]
      exact hs v hv

theorem CommandBraces.opens_closes {kept : Nat} {t : Text} (h : CommandBraces kept t) :
    OpensCommands t ∧ ClosesOpened kept t := by
  induction h with
  | nil => exact ⟨by simp [OpensCommands], closesOpened_nil.2 (Int.natCast_nonneg _)⟩
  | char hopen hclose _ ih =>
    rw [opensCommands_cons, closesOpened_cons, rise, if_neg hopen, if_neg hclose, Int.add_zero]
    exact ⟨⟨fun h => absurd h hopen, ih.1⟩, Int.natCast_nonneg _, ih.2⟩
  | opening hslash _ ih =>
    rw [opensCommands_cons, closesOpened_cons, rise, if_pos rfl]
    exact ⟨⟨fun _ => hslash, ih.1⟩, Int.natCast_nonneg _, ih.2⟩
  | closing _ ih =>
    rw [opensCommands_cons, closesOpened_cons, rise, if_neg (by decide), if_pos rfl,
      Int.natCast_succ, Int.add_neg_cancel_right]
    exact ⟨⟨fun h => absurd h (by decide), ih.1⟩, Int.natCast_nonneg _, ih.2⟩

theorem OpensCommands.commandBraces {t : Text} (h : OpensCommands t) {kept : Nat}
    (hcloses : ClosesOpened kept t) : CommandBraces kept t := by
  induction t generalizing kept with
  | nil => exact .nil
  | cons c s ih =>
    obtain ⟨hfirst, hrest⟩ := opensCommands_cons.1 h
    obtain ⟨_, hbehind⟩ := closesOpened_cons.1 hcloses
    by_cases hopen : c = '{'
    · subst hopen
      exact .opening (hfirst rfl) (ih hrest hbehind)
    · by_cases hclose : c = '}'
      · subst hclose
        rw [rise, if_neg hopen, if_pos rfl] at hbehind
        cases kept with
        | zero => exact absurd hbehind.nonneg (by decide)
        | succ kept =>
          rw [Int.natCast_succ, Int.add_neg_cancel_right] at hbehind
          exact .closing (ih hrest hbehind)
      · rw [rise, if_neg hopen, if_neg hclose, Int.add_zero] at hbehind
        exact .char hopen hclose (ih hrest hbehind)

/-! ### Cleaning -/

structure Cleaned (t : Text) : Prop where
  tidy : Tidy t
  opens : OpensCommands t
  closes : ClosesOpened 0 t

theorem cleaned_cleanValue (v : Text) : Cleaned (cleanValue v) := by
  obtain ⟨hopens, hcloses⟩ := (commandBraces_dropBraces 0 v).squeeze.opens_closes
  exact ⟨tidy_squeeze _, hopens, hcloses⟩

theorem Cleaned.cleanValue_eq {t : Text} (h : Cleaned t) : cleanValue t = t := by
  have hbraces : CommandBraces 0 t := h.opens.commandBraces h.closes
  rw [cleanValue, hbraces.dropBraces_eq, h.tidy.squeeze_eq]

def isKept (c : Char) : Bool := !c.isBlank && c != '{' && c != '}'

theorem filter_isKept_dropBraces (kept : Nat) (s : Text) :
    (dropBraces kept s).filter isKept = s.filter isKept := by
  have hopened : ¬isKept '{' := by decide
  have hclosed : ¬isKept '}' := by decide
  fun_induction dropBraces kept s with
  | case1 kept => rfl
  | case2 kept s h ih => rw [List.filter_cons_of_neg hopened, List.filter_cons_of_neg hopened, ih]
  | case3 kept s h ih => rw [List.filter_cons_of_neg hopened, ih]
  | case4 s h ih => rw [List.filter_cons_of_neg hclosed, ih]
  | case5 s h kept ih => rw [List.filter_cons_of_neg hclosed, List.filter_cons_of_neg hclosed, ih]
  | case6 kept c s hopen hclose ih => rw [List.filter_cons, List.filter_cons, ih]

/-- Cleaning takes braces and blanks away and nothing else. -/
theorem filter_isKept_cleanValue (v : Text) :
    (cleanValue v).filter isKept = v.filter isKept := by
  have hsplit (t : Text) :
      t.filter isKept = (t.filter fun c => !c.isBlank).filter fun c => c != '{' && c != '}' := by
    rw [List.filter_filter]
    congr 1
    funext c
    rw [isKept, Bool.and_assoc, Bool.and_comm]
  rw [cleanValue, hsplit, filter_squeeze, ← hsplit, filter_isKept_dropBraces]

/-- Cleaning brings every value, of balanced braces or not, into the form of cleaned values, keeps
all but its braces and blanks, and leaves the texts of this form and no others as they are. -/
theorem cleanValue_stable (v : Text) :
    Cleaned (cleanValue v) ∧ cleanValue (cleanValue v) = cleanValue v ∧
      (cleanValue v).filter isKept = v.filter isKept ∧ (cleanValue v = v ↔ Cleaned v) :=
  ⟨cleaned_cleanValue v, (cleaned_cleanValue v).cleanValue_eq, filter_isKept_cleanValue v,
    fun h => h ▸ cleaned_cleanValue v, Cleaned.cleanValue_eq⟩

example : cleanValue "\x7d\n\x7b\\em  \x7bA\x7d\u00a0b\x7d \x7b\x7b\\'e\x7d \x7b" =
    "\x7b\\em A\x7d b \x7b\\'e\x7d" := by decide +kernel

end Bibliography.Bibtex

end TexCatalog
