import Mathlib.Data.List.TakeWhile
import TexCatalog.Proofs.BalancedMarks

/-!
# The texts of commands and groups

The name of a command ends in front of the first character that is no letter. Where a group ends
depends on its content alone and not on what stands behind it. So the texts that are read as a group
are those of one form: perhaps layout, the content between its brackets or braces, and then the
rest.
-/

namespace TexCatalog

namespace Source

open Text

def Bracketed (t : Text) : Prop := bracketed? ('[' :: (t ++ [']'])) = some (t, [])

instance (t : Text) : Decidable (Bracketed t) :=
  inferInstanceAs (Decidable (bracketed? ('[' :: (t ++ [']'])) = some (t, [])))

def stars (starred : Bool) : Text := if starred then ['*'] else []

section

variable {s name r : Text}

theorem commandName?_eq_some_iff : commandName? s = some (name, r) ↔
    s = '\\' :: (name ++ r) ∧ name ≠ [] ∧ (∀ c ∈ name, c.isAlpha) ∧ ∀ c ∈ r.head?, ¬c.isAlpha := by
  constructor
  · intro h
    have hs := commandName?_eq h
    cases s with
    | nil => cases h
    | cons c s =>
      rw [commandName?] at h
      split at h
      · dsimp only at h
        split at h
        · cases h
        · next hne =>
          cases h
          refine ⟨hs, hne, List.all_eq_true.1 List.all_takeWhile, fun d hd => ?_⟩
          have hhead := List.head?_dropWhile_not Char.isAlpha s
          rw [hd] at hhead
          simpa using hhead
      · cases h
  · rintro ⟨rfl, hne, hletters, hr⟩
    cases r with
    | nil =>
      have htake : name.takeWhile Char.isAlpha = name := List.takeWhile_eq_self_iff.2 hletters
      have hdrop : name.dropWhile Char.isAlpha = [] := List.dropWhile_eq_nil_iff.2 hletters
      rw [List.append_nil, commandName?, if_pos rfl, htake, hdrop]
      exact if_neg hne
    | cons c r => exact commandName?_word hne hletters (hr c rfl) r

theorem stars_star (s : Text) : stars (star s).1 ++ (star s).2 = s := star_eq s

theorem star_stars {starred : Bool} (h : ∀ c ∈ r.head?, c ≠ '*') :
    star (stars starred ++ r) = (starred, r) := by
  cases starred with
  | true => rfl
  | false =>
    cases r with
    | nil => rfl
    | cons c r => exact if_neg (h c rfl)

/-- The name and the star of a command end in front of what is no letter and no star. -/
theorem commandName?_starred (starred : Bool) (hne : name ≠ [])
    (hletters : ∀ c ∈ name, c.isAlpha) (hr : ∀ c ∈ r.head?, ¬c.isAlpha ∧ c ≠ '*') :
    commandName? ('\\' :: (name ++ (stars starred ++ r))) = some (name, stars starred ++ r) ∧
      star (stars starred ++ r) = (starred, r) := by
  have hstars : ∀ c ∈ (stars starred ++ r).head?, ¬c.isAlpha := by
    cases starred with
    | true =>
      rintro _ ⟨rfl⟩
      decide
    | false => exact fun c hc => (hr c hc).1
  exact ⟨commandName?_eq_some_iff.2 ⟨rfl, hne, hletters, hstars⟩,
    star_stars fun c hc => (hr c hc).2⟩

end

theorem closeBrace_stops {depth : Nat} {s v r : Text} (h : closeBrace depth s = some (v, r))
    (t : Text) : closeBrace depth (v ++ '}' :: t) = some (v, t) := by
  rw [Marks.closeBrace_eq_close depth 0] at h ⊢
  exact Marks.braces.close_stops (Int.natCast_nonneg depth) h t

theorem closeBracket_stops {depth braces : Nat} {s v r : Text}
    (h : closeBracket depth braces s = some (v, r)) (t : Text) :
    closeBracket depth braces (v ++ ']' :: t) = some (v, t) := by
  rw [Marks.closeBracket_eq_close] at h ⊢
  exact Marks.brackets.close_stops (Int.natCast_nonneg depth) h t

section

variable {s v r : Text}

theorem Closed.braced? (h : Closed v) (r : Text) :
    braced? ('{' :: (v ++ '}' :: r)) = some (v, r) :=
  closeBrace_stops h r

theorem Bracketed.bracketed? (h : Bracketed v) (r : Text) :
    bracketed? ('[' :: (v ++ ']' :: r)) = some (v, r) :=
  closeBracket_stops h r

theorem braced?_eq_some_iff : braced? s = some (v, r) ↔ Closed v ∧ s = '{' :: (v ++ '}' :: r) := by
  constructor
  · intro h
    obtain rfl := braced?_eq h
    exact ⟨closeBrace_stops h [], rfl⟩
  · rintro ⟨hv, rfl⟩
    exact hv.braced? r

theorem bracketed?_eq_some_iff :
    bracketed? s = some (v, r) ↔ Bracketed v ∧ s = '[' :: (v ++ ']' :: r) := by
  constructor
  · intro h
    obtain rfl := bracketed?_eq h
    exact ⟨closeBracket_stops h [], rfl⟩
  · rintro ⟨hv, rfl⟩
    exact hv.bracketed? r

/-- A text is its layout and what stands behind it. -/
theorem exists_layout (s : Text) :
    ∃ gap : Text, (∀ c ∈ gap, c.isLayout) ∧ s = gap ++ dropLayout s :=
  ⟨s.takeWhile Char.isLayout, List.all_eq_true.1 List.all_takeWhile,
    List.takeWhile_append_dropWhile.symm⟩

section

variable {gap : Text} (hgap : ∀ c ∈ gap, c.isLayout)

include hgap

theorem dropLayout_append_cons {c : Char} (hc : ¬c.isLayout) (s : Text) :
    dropLayout (gap ++ c :: s) = c :: s :=
  dropWhile_append_cons hgap hc

theorem Closed.spacedBraced? (h : Closed v) (r : Text) :
    spacedBraced? (gap ++ '{' :: (v ++ '}' :: r)) = some (v, r) := by
  rw [Source.spacedBraced?, dropLayout_append_cons hgap (by decide)]
  exact h.braced? r

theorem Bracketed.spacedBracketed? (h : Bracketed v) (r : Text) :
    spacedBracketed? (gap ++ '[' :: (v ++ ']' :: r)) = some (v, r) := by
  rw [Source.spacedBracketed?, dropLayout_append_cons hgap (by decide)]
  exact h.bracketed? r

end

theorem spacedBraced?_eq_some_iff : spacedBraced? s = some (v, r) ↔
    ∃ gap : Text, (∀ c ∈ gap, c.isLayout) ∧ Closed v ∧ s = gap ++ '{' :: (v ++ '}' :: r) := by
  constructor
  · intro h
    obtain ⟨gap, hgap, hs⟩ := exists_layout s
    obtain ⟨hv, hrest⟩ := braced?_eq_some_iff.1 h
    rw [hrest] at hs
    exact ⟨gap, hgap, hv, hs⟩
  · rintro ⟨gap, hgap, hv, rfl⟩
    exact hv.spacedBraced? hgap r

theorem spacedBracketed?_eq_some_iff : spacedBracketed? s = some (v, r) ↔
    ∃ gap : Text, (∀ c ∈ gap, c.isLayout) ∧ Bracketed v ∧ s = gap ++ '[' :: (v ++ ']' :: r) := by
  constructor
  · intro h
    obtain ⟨gap, hgap, hs⟩ := exists_layout s
    obtain ⟨hv, hrest⟩ := bracketed?_eq_some_iff.1 h
    rw [hrest] at hs
    exact ⟨gap, hgap, hv, hs⟩
  · rintro ⟨gap, hgap, hv, rfl⟩
    exact hv.spacedBracketed? hgap r

end

/-! ### Commands without a node -/

theorem native?_eq_none {name : Text} (h : name ∉ nativeCommands) (s : Text) :
    Token.native? name s = none := by
  simp only [nativeCommands, ofString_eq, String.reduceToList, List.mem_cons, List.not_mem_nil,
    or_false, not_or] at h
  have hstyle : Token.styleOf? name = none := by simp [Token.styleOf?, h]
  simp [Token.native?, hstyle, h]

theorem next?_rawCommand {s name rest u r : Text} (hname : commandName? s = some (name, rest))
    (hbegin : name ≠ "begin") (hnative : name ∉ nativeCommands)
    (hraw : rawCommand? s = some (u, r)) : Token.next? s = some (.nodes [.raw .tex u], r) := by
  have henvironment := environment?_of_commandName hname hbegin
  have hcommand : Token.command? s = none := by
    simp only [Token.command?, hname, native?_eq_none hnative, ite_self]
  obtain ⟨rfl, hne, hletters, _⟩ := commandName?_eq_some_iff.1 hname
  obtain ⟨c, more, rfl⟩ := List.exists_cons_of_ne_nil hne
  obtain ⟨hdelimited, hescaped⟩ :=
    not_escaped_of_letter (hletters c (List.mem_cons_self ..)) (more ++ rest)
  apply next?_of_special?
  rw [special?_backslash, Token.backslash?, List.tail_cons, henvironment, hcommand, hraw,
    List.cons_append, hdelimited, hescaped]
  rfl

end Source

end TexCatalog
