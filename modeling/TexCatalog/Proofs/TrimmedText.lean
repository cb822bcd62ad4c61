import Mathlib.Data.List.DropRight
import Mathlib.Data.List.TakeWhile
import TexCatalog.Text.Blank

/-!
# Trimmed text

Blanks at the ends of a text are taken away up to the first character that is none.
-/

namespace TexCatalog

namespace Text

theorem trimStart_blanks {g : Text} (h : ∀ c ∈ g, c.isBlank) (t : Text) :
    trimStart (g ++ t) = trimStart t := by
  unfold trimStart
  rw [List.dropWhile_append_of_pos h]

theorem trimStart_append {t : Text} (h : ¬∀ c ∈ t, c.isBlank) (s : Text) :
    trimStart (t ++ s) = trimStart t ++ s ∧ trimStart t ≠ [] := by
  have hne : t.dropWhile Char.isBlank ≠ [] := fun hnil => h (List.dropWhile_eq_nil_iff.1 hnil)
  refine ⟨?_, hne⟩
  unfold trimStart
  rw [List.dropWhile_append, if_neg (by simpa using hne)]

theorem not_blank_of_trimStart {s rest : Text} {c : Char} (h : trimStart s = c :: rest) :
    ¬c.isBlank := by
  have hhead := List.head?_dropWhile_not Char.isBlank s
  rw [trimStart] at h
  rw [h] at hhead
  simpa using hhead

theorem trimStart_append_cons {c : Char} (hc : ¬c.isBlank) (t s : Text) :
    trimStart (t ++ c :: s) = trimStart t ++ c :: s := by
  unfold trimStart
  rw [List.dropWhile_append]
  split
  · next h =>
    rw [List.isEmpty_iff.1 h, List.dropWhile_cons_of_neg hc, List.nil_append]
  · rfl

theorem trimStart_piece (s : Text) : trimStart s <:+: s :=
  (List.dropWhile_suffix _).isInfix

theorem trimEnd_blanks {g : Text} (h : ∀ c ∈ g, c.isBlank) (t : Text) :
    trimEnd (t ++ g) = trimEnd t := by
  unfold trimEnd
  rw [List.reverse_append]
  exact congrArg List.reverse (trimStart_blanks (by simpa using h) t.reverse)

theorem trimEnd_append {t : Text} (h : ¬∀ c ∈ t, c.isBlank) (s : Text) :
    trimEnd (s ++ t) = s ++ trimEnd t ∧ trimEnd t ≠ [] := by
  obtain ⟨happend, hne⟩ := trimStart_append (t := t.reverse) (by simpa using h) s.reverse
  unfold trimEnd
  rw [List.reverse_append]
  refine ⟨?_, List.reverse_ne_nil_iff.2 hne⟩
  change (trimStart (t.reverse ++ s.reverse)).reverse = _
  rw [happend, List.reverse_append, List.reverse_reverse]
  rfl

theorem trimEnd_append_cons {c : Char} (hc : ¬c.isBlank) (t s : Text) :
    trimEnd (t ++ c :: s) = t ++ c :: trimEnd s := by
  unfold trimEnd
  rw [List.reverse_append, List.reverse_cons, List.append_assoc, List.singleton_append]
  change (trimStart (s.reverse ++ c :: t.reverse)).reverse = _
  rw [trimStart_append_cons hc, List.reverse_append, List.reverse_cons, List.reverse_reverse,
    List.append_assoc, List.singleton_append]
  rfl

/-- A text that ends in no blank is not trimmed. -/
theorem trimEnd_append_singleton (s : Text) {c : Char} (h : ¬c.isBlank) :
    trimEnd (s ++ [c]) = s ++ [c] := by
  simp [trimEnd, h]

theorem trimEnd_eq_nil {t : Text} : trimEnd t = [] ↔ ∀ c ∈ t, c.isBlank = true := by
  rw [trimEnd, List.reverse_eq_nil_iff, List.dropWhile_eq_nil_iff]
  simp

theorem trim_blanks {g : Text} (h : ∀ c ∈ g, c.isBlank) (t : Text) : trim (t ++ g) = trim t := by
  unfold trim
  by_cases ht : ∀ c ∈ t, c.isBlank
  · have hall : ∀ c ∈ t ++ g, c.isBlank := fun c hc => (List.mem_append.1 hc).elim (ht c) (h c)
    unfold trimStart
    rw [List.dropWhile_eq_nil_iff.2 hall, List.dropWhile_eq_nil_iff.2 ht]
  · rw [(trimStart_append ht g).1, trimEnd_blanks h]

theorem trim_blanks_append {g : Text} (h : ∀ c ∈ g, c.isBlank) (t : Text) :
    trim (g ++ t) = trim t := by
  rw [trim, trimStart_blanks h, trim]

theorem trimStart_of_prefix {s t : Text} (h : t <+: trimStart s) : trimStart t = t := by
  cases t with
  | nil => rfl
  | cons c t =>
    obtain ⟨r, hr⟩ := h
    exact List.dropWhile_cons_of_neg (not_blank_of_trimStart hr.symm)

@[simp] theorem trim_trim (s : Text) : trim (trim s) = trim s := by
  have hend : trimEnd (trimStart s) <+: trimStart s := List.rdropWhile_prefix _ _
  rw [trim, trim, trimStart_of_prefix hend]
  exact List.rdropWhile_idempotent _ _

theorem exists_trimEnd_append (s : Text) :
    ∃ gap : Text, (∀ c ∈ gap, c.isBlank) ∧ s = trimEnd s ++ gap := by
  refine ⟨(s.reverse.takeWhile Char.isBlank).reverse, fun c hc => ?_, ?_⟩
  · exact List.all_eq_true.1 List.all_takeWhile c (List.mem_reverse.1 hc)
  · rw [trimEnd, ← List.reverse_append, List.takeWhile_append_dropWhile, List.reverse_reverse]

theorem exists_trim_append (s : Text) :
    ∃ gap : Text, (∀ c ∈ gap, c.isBlank) ∧ trimStart s = trim s ++ gap :=
  exists_trimEnd_append (trimStart s)

theorem trim_trimEnd (s : Text) : trim (trimEnd s) = trim s := by
  obtain ⟨gap, hgap, hs⟩ := exists_trimEnd_append s
  conv_rhs => rw [hs, trim_blanks hgap]

/-- Blanks at the end of what is appended are trimmed with it. -/
theorem trimEnd_append_trimEnd (t s : Text) : trimEnd (t ++ trimEnd s) = trimEnd (t ++ s) := by
  obtain ⟨gap, hgap, hs⟩ := exists_trimEnd_append s
  conv_rhs => rw [hs, ← List.append_assoc, trimEnd_blanks hgap]

theorem trim_piece (s : Text) : trim s <:+: s := by
  have hend : trim s <+: trimStart s := List.rdropWhile_prefix _ _
  exact hend.isInfix.trans (trimStart_piece s)

theorem trimStart_of_trim {s : Text} (h : trim s = s) : trimStart s = s := by
  have hfront : trim s <+: trimStart s := List.rdropWhile_prefix _ _
  rw [← h]
  exact trimStart_of_prefix hfront

theorem trimEnd_of_trim {s : Text} (h : trim s = s) : trimEnd s = s := by
  rwa [trim, trimStart_of_trim h] at h

theorem not_blank_of_trim {s : Text} (hne : s ≠ []) (h : trim s = s) : ¬∀ c ∈ s, c.isBlank := by
  intro hall
  have hstart := trimStart_of_trim h
  rw [trimStart, List.dropWhile_eq_nil_iff.2 hall] at hstart
  exact hne hstart.symm

theorem trim_eq_nil_iff {s : Text} : trim s = [] ↔ isBlank s = true := by
  rw [isBlank, List.all_eq_true]
  constructor
  · intro htrim
    by_contra hblank
    have hstart : trimStart s ≠ [] := fun hnil => hblank (List.dropWhile_eq_nil_iff.1 hnil)
    have htwice : trimStart (trimStart s) = trimStart s := trimStart_of_prefix (List.prefix_refl _)
    refine (trimEnd_append (t := trimStart s) (fun hall => hstart ?_) []).2 htrim
    rw [← htwice]
    exact List.dropWhile_eq_nil_iff.2 hall
  · intro hall
    have hnil : trimStart s = [] := List.dropWhile_eq_nil_iff.2 hall
    rw [trim, hnil]
    rfl

theorem trim_append_blanks {x r : Text} (hfirst : ∀ c ∈ x.head?, ¬c.isBlank)
    (hlast : ∀ c ∈ x.getLast?, ¬c.isBlank) (hr : ∀ c ∈ r, c.isBlank) :
    trim (x ++ r) = x := by
  have hstart : trimStart x = x := by
    cases x with
    | nil => rfl
    | cons c x => exact List.dropWhile_cons_of_neg (hfirst c rfl)
  have hend : x.reverse.dropWhile Char.isBlank = x.reverse := by
    rw [← List.head?_reverse] at hlast
    cases hback : x.reverse with
    | nil => rfl
    | cons c y =>
      rw [hback] at hlast
      exact List.dropWhile_cons_of_neg (hlast c rfl)
  rw [trim_blanks hr, trim, hstart, trimEnd, hend, List.reverse_reverse]

end Text

end TexCatalog
