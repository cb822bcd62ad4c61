import Mathlib.Data.List.Basic
import TexCatalog.Bibliography.Bibtex.Entries
import TexCatalog.Proofs.SourcePieces

/-!
# What comes of a BibTeX text

The scanner cuts a text into pieces and nothing else: keys and values stand in the text as they are
handed on, and no more entries are read or passed over than there are at signs. The one step that
can go wrong is the division of an author list, which goes on by bytes and asks at every byte
outside braces for the text from there on. So a reading breaks off exactly if an author list has a
character of several bytes outside braces, and else it gives a bibliography or counts malformed
entries.
-/

namespace TexCatalog.Bibliography

namespace Bibtex

open Source

/-! ### Pieces -/

theorem closeBraces_eq {depth : Nat} {s v r : Text} (h : closeBraces depth s = some (v, r)) :
    s = v ++ '}' :: r := by
  fun_induction closeBraces depth s generalizing v r <;>
    simp_all [onto, Option.map_eq_some_iff] <;> grind

theorem closeQuote_eq {s v r : Text} (h : closeQuote s = some (v, r)) : s = v ++ '"' :: r := by
  fun_induction closeQuote s generalizing v r <;>
    simp_all [onto, Option.map_eq_some_iff] <;> grind

theorem run?_eq {p : Char → Bool} {s v r : Text} (h : run? p s = some (v, r)) : s = v ++ r := by
  unfold run? at h
  split at h
  · cases h
  · rw [Option.some.injEq, Prod.mk.injEq] at h
    rw [← h.1, ← h.2, List.takeWhile_append_dropWhile]

theorem dropLayout_piece (s : Text) : Text.dropLayout s <:+: s :=
  (List.dropWhile_suffix _).isInfix

theorem mark?_piece {c : Char} {s r : Text} (h : mark? c s = some r) : r <:+: s := by
  have hlayout := dropLayout_piece s
  unfold mark? at h
  split at h
  · cases h
  · next d rest hs =>
    split at h
    · cases h
      exact (hs ▸ List.suffix_cons d r).isInfix.trans hlayout
    · cases h

theorem value?_pieces {s v r : Text} (h : value? s = some (v, r)) : v <:+: s ∧ r <:+: s := by
  have hbehind {c d : Char} {t : Text} (ht : t = v ++ d :: r) : v <:+: c :: t ∧ r <:+: c :: t := by
    rw [ht]
    exact ⟨⟨[c], d :: r, by simp⟩, ⟨c :: v ++ [d], [], by simp⟩⟩
  unfold value? at h
  split at h
  · exact hbehind (closeBraces_eq h)
  · exact hbehind (closeQuote_eq h)
  · rw [run?_eq h]
    exact ⟨(List.prefix_append v r).isInfix, (List.suffix_append v r).isInfix⟩

theorem field?_pieces {s name v r : Text} (h : field? s = some ((name, v), r)) :
    v <:+: s ∧ r <:+: s := by
  simp only [field?, bind, Option.bind_eq_some_iff] at h
  obtain ⟨⟨front, a⟩, ha, b, hb, ⟨value, c⟩, hc, he⟩ := h
  rw [Option.some.injEq, Prod.mk.injEq, Prod.mk.injEq] at he
  obtain ⟨⟨_, rfl⟩, rfl⟩ := he
  have hname : a <:+: s := by
    have hsuffix := List.suffix_append front a
    rw [← run?_eq ha] at hsuffix
    exact hsuffix.isInfix.trans (dropLayout_piece s)
  have hmark : Text.dropLayout b <:+: s := (dropLayout_piece b).trans ((mark?_piece hb).trans hname)
  have hvalue := value?_pieces hc
  exact ⟨hvalue.1.trans hmark, hvalue.2.trans hmark⟩

theorem dropComma_piece (s : Text) : dropComma s <:+: s := by
  have hstart := Text.trimStart_piece s
  unfold dropComma
  split
  · next rest hs => exact (hs ▸ List.suffix_cons ',' rest).isInfix.trans hstart
  · exact hstart

/-- The fields that are read are pieces of the text, and so is what follows them. -/
theorem fields_pieces (m : TextMap Text) (s : Text) :
    (fields m s).2 <:+: s ∧ ∀ name v, (fields m s).1.get? name = some v →
      m.get? name = some v ∨ v <:+: s := by
  fun_induction fields m s with
  | case1 => exact ⟨List.nil_infix, fun _ _ h => .inl h⟩
  | case2 m s rest hs | case3 m s c rest hs =>
    exact ⟨hs ▸ Text.trimStart_piece s, fun _ _ h => .inl h⟩
  | case4 m s c rest hs _ name value rest' hfield ih =>
    have hpieces := field?_pieces hfield
    have hstart := Text.trimStart_piece s
    have hmore : dropComma rest' <:+: s :=
      (dropComma_piece rest').trans (hpieces.2.trans hstart)
    refine ⟨ih.1.trans hmore, fun n v h => ?_⟩
    rcases ih.2 n v h with hold | hnew
    · rw [TextMap.get?_insert] at hold
      split at hold
      · cases hold
        exact .inr (hpieces.1.trans hstart)
      · exact .inl hold
    · exact .inr (hnew.trans hmore)

/-- The key and the values of an entry stand in a text. -/
structure RawEntry.TakenFrom (raw : RawEntry) (s : Text) : Prop where
  key : raw.key <:+: s
  value {name v : Text} : raw.fields.get? name = some v → v <:+: s

theorem RawEntry.TakenFrom.mono {raw : RawEntry} {s t : Text} (h : raw.TakenFrom s)
    (hst : s <:+: t) : raw.TakenFrom t :=
  ⟨h.key.trans hst, fun hv => (h.value hv).trans hst⟩

theorem body?_pieces {type s r : Text} {raw : RawEntry} (h : body? type s = some (raw, r)) :
    raw.TakenFrom s ∧ r <:+: s := by
  simp only [body?, bind, Option.bind_eq_some_iff] at h
  obtain ⟨a, ha, ⟨key, b⟩, hb, c, hc, d, hd, he⟩ := h
  rw [Option.some.injEq, Prod.mk.injEq] at he
  obtain ⟨rfl, rfl⟩ := he
  have hopen : Text.dropLayout a <:+: s := (dropLayout_piece a).trans (mark?_piece ha)
  have hsplit := run?_eq hb
  have hkey : key <:+: s := by
    refine List.IsInfix.trans ?_ hopen
    rw [hsplit]
    exact (List.prefix_append key b).isInfix
  have hfields : c <:+: s := by
    refine ((mark?_piece hc).trans ?_).trans hopen
    rw [hsplit]
    exact (List.suffix_append key b).isInfix
  have hpieces := fields_pieces ∅ c
  refine ⟨⟨hkey, fun hv => ?_⟩, (mark?_piece hd).trans (hpieces.1.trans hfields)⟩
  rcases hpieces.2 _ _ hv with hempty | hpiece
  · cases hempty
  · exact hpiece.trans hfields

theorem directive?_piece {s r : Text} (h : directive? s = some r) : r <:+: s := by
  unfold directive? at h
  split at h
  · next t =>
    split at h
    · next v rest hclose =>
      cases h
      rw [closeBraces_eq hclose]
      exact ⟨'{' :: v ++ ['}'], [], by simp⟩
    · cases h
      exact List.nil_infix
  · cases h

theorem entry?_pieces {s r : Text} {raw? : Option RawEntry} (h : entry? s = some (raw?, r)) :
    (∀ raw ∈ raw?, raw.TakenFrom s) ∧ r <:+: s := by
  unfold entry? at h
  split at h
  · cases h
  · next type t htype =>
    have ht : t <:+: s := by
      rw [run?_eq htype]
      exact (List.suffix_append type t).isInfix
    simp only at h
    split at h
    · obtain ⟨rest, hrest, he⟩ := Option.map_eq_some_iff.1 h
      cases he
      refine ⟨fun raw hraw => absurd hraw (Option.not_mem_none raw), ?_⟩
      exact (directive?_piece hrest).trans ((dropLayout_piece t).trans ht)
    · obtain ⟨⟨raw, rest⟩, hbody, he⟩ := Option.map_eq_some_iff.1 h
      cases he
      have hpieces := body?_pieces hbody
      refine ⟨fun raw' hraw => ?_, hpieces.2.trans ht⟩
      cases hraw
      exact hpieces.1.mono ht

theorem count_le_of_piece {s t : Text} (h : s <:+: t) (c : Char) : s.count c ≤ t.count c :=
  h.sublist.count_le c

/-- What is scanned from a text stands in it, and every entry, malformed or not, has an at sign of
its own. -/
theorem scan_pieces (s : Text) :
    (∀ raw ∈ (scan s).1, raw.TakenFrom s) ∧
      (scan s).1.length + (scan s).2 ≤ s.count '@' := by
  have hbehind {c : Char} {s rest t : Text} (hs : skipComments s = c :: rest) (ht : t <:+: rest) :
      t <:+: s := by
    have hskip := skipComments_piece s
    rw [hs] at hskip
    exact ht.trans ((List.suffix_cons c rest).isInfix.trans hskip)
  have hcount {s rest t : Text} (hs : skipComments s = '@' :: rest) (ht : t <:+: rest) :
      t.count '@' + 1 ≤ s.count '@' := by
    have hskip := count_le_of_piece (skipComments_piece s) '@'
    have htail := count_le_of_piece ht '@'
    rw [hs, List.count_cons_self] at hskip
    omega
  have hdrop (rest : Text) : rest.dropWhile (· ≠ '@') <:+: rest :=
    (List.dropWhile_suffix _).isInfix
  fun_induction scan s with
  | case1 => simp
  | case2 s rest raw rest' hentry hs ih =>
    have hpieces := entry?_pieces hentry
    have hlt := hcount hs hpieces.2
    refine ⟨fun raw' hraw => ?_, by rw [List.length_cons]; omega⟩
    rcases List.mem_cons.1 hraw with rfl | hraw
    · exact (hpieces.1 raw' rfl).mono (hbehind hs (List.infix_refl rest))
    · exact (ih.1 raw' hraw).mono (hbehind hs hpieces.2)
  | case3 s rest rest' hentry hs ih =>
    have hrest := (entry?_pieces hentry).2
    have hlt := hcount hs hrest
    exact ⟨fun raw hraw => (ih.1 raw hraw).mono (hbehind hs hrest), by omega⟩
  | case4 s rest hentry hs ih =>
    have hlt := hcount hs (hdrop rest)
    exact ⟨fun raw hraw => (ih.1 raw hraw).mono (hbehind hs (hdrop rest)),
      Nat.le_trans (Nat.succ_le_succ ih.2) hlt⟩
  | case5 s c rest hs hc ih =>
    have hrest := hbehind hs (hdrop rest)
    exact ⟨fun raw hraw => (ih.1 raw hraw).mono hrest,
      Nat.le_trans ih.2 (count_le_of_piece hrest '@')⟩

/-! ### The division of author lists -/

def rise (c : Char) : Int := if c = '{' then 1 else if c = '}' then -1 else 0

def level : Text → Int
  | [] => 0
  | c :: t => rise c + level t

@[simp] theorem level_nil : level [] = 0 := rfl

@[simp] theorem level_cons (c : Char) (t : Text) : level (c :: t) = rise c + level t := rfl

@[simp] theorem level_append (s t : Text) : level (s ++ t) = level s + level t := by
  induction s with
  | nil => simp
  | cons c s ih => rw [List.cons_append, level_cons, level_cons, ih, Int.add_assoc]

theorem level_eq_count (t : Text) : level t = t.count '{' - t.count '}' := by
  induction t with
  | nil => rfl
  | cons c t ih =>
    rw [level_cons, ih, rise]
    split
    · next h => simp [h]; omega
    · next h =>
      split
      · next h' => simp [h']; omega
      · next h' => simp [h, h']

/-- However many groups a piece of a text leaves open or closes too often, the text has as many
braces. -/
theorem natAbs_level_le {t s : Text} (h : t <:+: s) :
    (level t).natAbs ≤ s.count '{' + s.count '}' := by
  have hopen := count_le_of_piece h '{'
  have hclose := count_le_of_piece h '}'
  rw [level_eq_count]
  omega

/-- A character of several bytes stands outside braces, where `depth` groups are open in front of
the text. -/
def HasWide (depth : Int) (t : Text) : Prop :=
  ∃ front c back, t = front ++ c :: back ∧ depth + level front = 0 ∧ 1 < c.utf8Size

theorem not_hasWide_nil (depth : Int) : ¬HasWide depth [] := by
  rintro ⟨front, c, back, h, _⟩
  exact absurd h.symm (by simp)

theorem hasWide_cons {depth : Int} {c : Char} {t : Text} :
    HasWide depth (c :: t) ↔ depth = 0 ∧ 1 < c.utf8Size ∨
      HasWide (depth + rise c) t := by
  constructor
  · rintro ⟨front, d, back, ht, hlevel, hwide⟩
    cases front with
    | nil =>
      obtain ⟨rfl, rfl⟩ := List.cons.inj ht
      exact .inl ⟨by simpa using hlevel, hwide⟩
    | cons e front =>
      obtain ⟨rfl, rfl⟩ := List.cons.inj ht
      refine .inr ⟨front, d, back, rfl, ?_, hwide⟩
      rwa [level_cons, ← Int.add_assoc] at hlevel
  · rintro (⟨hdepth, hwide⟩ | ⟨front, d, back, rfl, hlevel, hwide⟩)
    · exact ⟨[], c, t, rfl, by simpa using hdepth, hwide⟩
    · refine ⟨c :: front, d, back, rfl, ?_, hwide⟩
      rwa [level_cons, ← Int.add_assoc]

theorem not_hasWide {depth : Int} {t : Text} (h : t.all fun c => c.utf8Size = 1) :
    ¬HasWide depth t := by
  rintro ⟨front, c, back, rfl, _, hwide⟩
  have hnarrow : c.utf8Size = 1 := of_decide_eq_true (List.all_eq_true.1 h c (by simp))
  omega

/-- A narrow character that is no brace counts for nothing. -/
theorem hasWide_narrow {depth : Int} {c : Char} {t : Text} (hopen : c ≠ '{') (hclose : c ≠ '}')
    (h : depth ≠ 0 ∨ c.utf8Size = 1) : HasWide depth (c :: t) ↔ HasWide depth t := by
  rw [hasWide_cons, rise, if_neg hopen, if_neg hclose, Int.add_zero, or_iff_right]
  omega

/-- The word that separates names is narrow. -/
theorem hasWide_separator (depth : Int) (t : Text) :
    HasWide depth ((" and " : Text) ++ t) ↔ HasWide depth t := by
  have hall : (" and " : Text).all fun c => c ≠ '{' ∧ c ≠ '}' ∧ c.utf8Size = 1 := by
    rw [Text.ofString_eq]
    decide
  have hnarrow : ∀ c ∈ (" and " : Text), c ≠ '{' ∧ c ≠ '}' ∧ c.utf8Size = 1 := fun c hc =>
    of_decide_eq_true (List.all_eq_true.1 hall c hc)
  generalize (" and " : Text) = separator at hnarrow
  induction separator with
  | nil => rfl
  | cons c more ih =>
    obtain ⟨hopen, hclose, hsize⟩ := hnarrow c (List.mem_cons_self ..)
    rw [List.cons_append, hasWide_narrow hopen hclose (.inr hsize)]
    exact ih fun d hd => hnarrow d (List.mem_cons_of_mem c hd)

/-- A list is divided unless it has a wide character outside braces. -/
theorem splitNames_outcome (depth : Int) (s : Text) :
    HasWide depth s ∧ splitNames depth s = .error .splitCharacter ∨
      ¬HasWide depth s ∧ ∃ names, splitNames depth s = .ok names := by
  have hmap {f : List Text → List Text} {depth depth' : Int} {s t : Text}
      {r : Except Failure (List Text)} (hr : r = (splitNames depth t).map f)
      (hwide : HasWide depth' s ↔ HasWide depth t)
      (ih : HasWide depth t ∧ splitNames depth t = .error .splitCharacter ∨
        ¬HasWide depth t ∧ ∃ names, splitNames depth t = .ok names) :
      HasWide depth' s ∧ r = .error .splitCharacter ∨
        ¬HasWide depth' s ∧ ∃ names, r = .ok names := by
    rw [hwide]
    rcases ih with ⟨h, he⟩ | ⟨h, names, he⟩
    · exact .inl ⟨h, by rw [hr, he]; rfl⟩
    · exact .inr ⟨h, f names, by rw [hr, he]; rfl⟩
  fun_induction splitNames depth s with
  | case1 depth => exact .inr ⟨not_hasWide_nil depth, _, rfl⟩
  | case2 depth s ih =>
    refine hmap rfl ?_ ih
    exact (hasWide_cons.trans (or_iff_right fun h => absurd h.2 (by decide)))
  | case3 depth s _ ih =>
    refine hmap rfl ?_ ih
    exact (hasWide_cons.trans (or_iff_right fun h => absurd h.2 (by decide)))
  | case4 c s hopen hclose hwide => exact .inl ⟨hasWide_cons.2 (.inl ⟨rfl, hwide⟩), rfl⟩
  | case5 c s hopen hclose hnarrow hand ih =>
    refine hmap rfl ?_ ih
    obtain ⟨rest, hrest⟩ := List.isPrefixOf_iff_prefix.1 hand
    have hbehind : s.drop 4 = rest := by
      have hlist : (" and " : Text) = [' ', 'a', 'n', 'd', ' '] := by simp
      rw [hlist] at hrest
      rw [← (List.cons.inj hrest).2]
      rfl
    rw [← hrest, hbehind]
    exact hasWide_separator 0 rest
  | case6 c s hopen hclose hnarrow hand ih =>
    have := c.utf8Size_pos
    exact hmap rfl (hasWide_narrow hopen hclose (.inr (by omega))) ih
  | case7 depth c s hopen hclose hdepth ih =>
    exact hmap rfl (hasWide_narrow hopen hclose (.inl hdepth)) ih

/-! ### Entries -/

def RawEntry.BreaksOff (raw : RawEntry) : Prop :=
  ∃ value, raw.fields.get? "author" = some value ∧ HasWide 0 value

theorem toEntry_outcome (raw : RawEntry) :
    raw.BreaksOff ∧ raw.toEntry = .error .splitCharacter ∨
      ¬raw.BreaksOff ∧ ∃ authors, raw.toEntry = .ok (raw.describe authors) := by
  unfold RawEntry.BreaksOff RawEntry.toEntry RawEntry.authors
  cases hfield : raw.fields.get? "author" with
  | none =>
    refine .inr ⟨?_, [], rfl⟩
    rintro ⟨_, h, _⟩
    cases h
  | some value =>
    have hlist : (∃ v, some value = some v ∧ HasWide 0 v) ↔ HasWide 0 value :=
      ⟨fun ⟨_, h, hwide⟩ => Option.some.inj h ▸ hwide, fun h => ⟨value, rfl, h⟩⟩
    rw [hlist]
    refine (splitNames_outcome 0 value).imp ?_ ?_
    · rintro ⟨h, he⟩
      exact ⟨h, by simp only [authorsOfList, he]; rfl⟩
    · rintro ⟨h, names, he⟩
      exact ⟨h, _, by simp only [authorsOfList, he]; rfl⟩

/-- Entries are made of scanned ones, each under its key, unless one of them breaks off. -/
theorem toEntries_outcome (raws : List RawEntry) :
    (∃ raw ∈ raws, raw.BreaksOff) ∧ toEntries raws = .error .splitCharacter ∨
      (∀ raw ∈ raws, ¬raw.BreaksOff) ∧
        ∃ entries, toEntries raws = .ok entries ∧ entries.map (·.id) = raws.map (·.key) := by
  induction raws with
  | nil => exact .inr ⟨fun raw h => absurd h List.not_mem_nil, [], rfl, rfl⟩
  | cons raw more ih =>
    rw [List.exists_mem_cons_iff, List.forall_mem_cons, toEntries]
    rcases toEntry_outcome raw with ⟨h, he⟩ | ⟨h, authors, he⟩
    · exact .inl ⟨.inl h, by rw [he]⟩
    · rcases ih with ⟨hmore, hes⟩ | ⟨hmore, entries, hes, hkeys⟩
      · exact .inl ⟨.inr hmore, by rw [he, hes]; rfl⟩
      · refine .inr ⟨⟨h, hmore⟩, raw.describe authors :: entries, by rw [he, hes]; rfl, ?_⟩
        rw [List.map_cons, List.map_cons, hkeys]
        rfl

end Bibtex

open Bibtex

/-- Every text is scanned into pieces of it, at most as many as it has at signs, and none of them
leaves more groups open, or closes more too often, than it has braces. If an author list that was
scanned has a character of several bytes outside braces, the reading breaks off there. Otherwise
there is a bibliography, or no entry was readable and the malformed ones are counted. -/
theorem ofBibtex_outcome (s : Text) :
    (∀ raw ∈ (scan s).1, raw.TakenFrom s) ∧ (scan s).1.length + (scan s).2 ≤ s.count '@' ∧
      (∀ t, t <:+: s → (level t).natAbs ≤ s.count '{' + s.count '}') ∧
      ((∃ raw ∈ (scan s).1, raw.BreaksOff) ∧ ofBibtex s = .error .splitCharacter ∨
        (∀ raw ∈ (scan s).1, ¬raw.BreaksOff) ∧
          ((∃ bib, ofBibtex s = .ok bib) ∨ (scan s).1 = [] ∧ 0 < (scan s).2 ∧
            ofBibtex s = .error (.malformedEntries (scan s).2))) := by
  refine ⟨(scan_pieces s).1, (scan_pieces s).2, fun t => natAbs_level_le, ?_⟩
  unfold ofBibtex
  rcases toEntries_outcome (scan s).1 with ⟨h, he⟩ | ⟨h, entries, he, hkeys⟩
  · exact .inl ⟨h, by rw [he]⟩
  · refine .inr ⟨h, ?_⟩
    rw [he]
    by_cases hnone : entries = [] ∧ (scan s).2 ≠ 0
    · have hscanned : (scan s).1 = [] := by
        rwa [hnone.1, List.map_nil, eq_comm, List.map_eq_nil_iff] at hkeys
      exact .inr ⟨hscanned, Nat.pos_of_ne_zero hnone.2, if_pos hnone⟩
    · exact .inl ⟨ofEntries entries, if_neg hnone⟩

end TexCatalog.Bibliography
