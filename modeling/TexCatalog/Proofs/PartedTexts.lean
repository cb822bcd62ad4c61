import Mathlib.Data.Nat.Find
import TexCatalog.Proofs.TopLevelParts

/-!
# Parted texts

A text is parted at the first place outside braces and escapes where the separator begins, and what
stands behind the separator is parted in the same way. So nothing of the text is lost, every part
but the last ends outside braces and escapes, and no part holds another place to part it.
-/

namespace TexCatalog

namespace Source

open Text

variable {sep s t : Text}

/-- In a text with a rest behind it, the separator begins nowhere outside braces and escapes. -/
def FirstParted (sep t r : Text) : Prop :=
  ∀ u v, u ++ v = t → v ≠ [] → TopLevel u → ¬sep <+: v ++ r

/-- The parts of a text, each up to the first place where the separator begins. -/
inductive PartedAs (sep : Text) : Text → List Text → Prop
  | last {t : Text} : Unparted sep t → PartedAs sep t [t]
  | cut {part r : Text} {more : List Text} : TopLevel part → FirstParted sep part (sep ++ r) →
    PartedAs sep r more → PartedAs sep (part ++ (sep ++ r)) (part :: more)

theorem FirstParted.unparted {r : Text} (hne : sep ≠ []) (h : FirstParted sep t r) :
    Unparted sep t := by
  intro u v huv hu hbegins
  by_cases hv : v = []
  · rw [hv] at hbegins
    exact hne (List.prefix_nil.1 hbegins)
  · exact h u v huv hv hu (hbegins.trans (List.prefix_append v r))

/-- A text has a first place to part it, or none. -/
theorem unparted_or_exists_first (sep t : Text) : Unparted sep t ∨
    ∃ part r, t = part ++ (sep ++ r) ∧ TopLevel part ∧ FirstParted sep part (sep ++ r) := by
  by_cases h : ∃ k, TopLevel (t.take k) ∧ sep <+: t.drop k
  · right
    obtain ⟨htop, r, hr⟩ := Nat.find_spec h
    have ht : t = t.take (Nat.find h) ++ (sep ++ r) := by rw [hr, List.take_append_drop]
    refine ⟨t.take (Nat.find h), r, ht, htop, ?_⟩
    intro u v huv hv hu hbegins
    have hlt : u.length < Nat.find h := by
      have hlength := congrArg List.length huv
      have hpos := List.length_pos_iff.2 hv
      rw [List.length_append, List.length_take] at hlength
      omega
    have hsplit : t = u ++ (v ++ (sep ++ r)) := by rw [← List.append_assoc, huv, ← ht]
    apply Nat.find_min h hlt
    rw [hsplit, List.take_left, List.drop_left]
    exact ⟨hu, hbegins⟩
  · left
    intro u v huv hu hbegins
    apply h
    refine ⟨u.length, ?_⟩
    rw [← huv, List.take_left, List.drop_left]
    exact ⟨hu, hbegins⟩

/-- Only a backslash makes a unit with what stands behind it. -/
theorem Nesting.eq_of_step_escaped {n : Nesting} {c : Char} {depth : Nat}
    (h : n.step c = ⟨depth, true⟩) : n = ⟨depth, false⟩ ∧ c = '\\' := by
  obtain ⟨braces, escaped⟩ := n
  cases escaped with
  | true => cases h
  | false =>
    by_cases hslash : c = '\\'
    · subst hslash
      cases h
      exact ⟨rfl, rfl⟩
    · by_cases hopen : c = '{'
      · subst hopen
        cases h
      · by_cases hclose : c = '}'
        · subst hclose
          cases h
        · rw [Nesting.step_char braces (by simp [hslash, hopen, hclose])] at h
          cases h

/-- A text without a place to part it is its only part, also where it ends in a backslash. -/
theorem splitTopLevel_of_unparted (h : Unparted sep t) : splitTopLevel sep t = [t] := by
  obtain ⟨⟨depth, escaped⟩, hbehind⟩ : ∃ n, Nesting.top.behind t = n := ⟨_, rfl⟩
  cases escaped with
  | false =>
    have hnone : ∀ u v, u ++ v = t → v ≠ [] → TopLevel u → ¬sep <+: v ++ [] := by
      intro u v huv _ hu
      rw [List.append_nil]
      exact h u v huv hu
    have hsplit := splitFrom_append [] hbehind hnone
    rwa [List.append_nil, splitFrom, foldr_consHead, List.append_nil] at hsplit
  | true =>
    obtain rfl | ⟨front, c, rfl⟩ := List.eq_nil_or_concat t
    · cases hbehind
    · rw [List.concat_eq_append] at h hbehind ⊢
      rw [Nesting.behind_append] at hbehind
      obtain ⟨hfront, rfl⟩ := Nesting.eq_of_step_escaped hbehind
      have hsplit := splitFrom_append ['\\'] hfront fun u v huv _ hu => by
        refine h u (v ++ ['\\']) ?_ hu
        rw [← List.append_assoc, huv]
      have hlast : splitFrom sep 0 depth ['\\'] = [['\\']] := by
        have hnone : ¬(depth = 0 ∧ sep.isPrefixOf ['\\'] = true) := by
          rintro ⟨rfl, hbegins⟩
          exact h front ['\\'] rfl hfront (List.isPrefixOf_iff_prefix.1 hbegins)
        rw [splitFrom, if_neg (by decide), if_neg (by decide), if_neg hnone, if_pos rfl]
      rw [splitTopLevel, hsplit, hlast, foldr_consHead]

theorem partedAs_splitTopLevel (hne : sep ≠ []) (hhead : ∀ c ∈ sep.head?, c ≠ '{' ∧ c ≠ '}')
    (t : Text) : PartedAs sep t (splitTopLevel sep t) := by
  induction hn : t.length using Nat.strongRecOn generalizing t with
  | ind n ih =>
    rcases unparted_or_exists_first sep t with hwhole | ⟨part, r, rfl, htop, hfirst⟩
    · rw [splitTopLevel_of_unparted hwhole]
      exact .last hwhole
    · have hsplit := splitFrom_append (sep ++ r) htop hfirst
      change splitTopLevel sep (part ++ (sep ++ r)) =
        part.foldr consHead (splitTopLevel sep (sep ++ r)) at hsplit
      rw [hsplit, splitTopLevel_separator hne hhead, foldr_consHead, List.append_nil]
      have hlt : r.length < n := by
        have hpos := List.length_pos_iff.2 hne
        rw [List.length_append, List.length_append] at hn
        omega
      exact .cut htop hfirst (ih r.length hlt r rfl)

namespace PartedAs

variable {parts : List Text}

theorem ne_nil (h : PartedAs sep t parts) : parts ≠ [] := by
  cases h <;> exact List.cons_ne_nil _ _

theorem join_eq (h : PartedAs sep t parts) : join sep parts = t := by
  induction h with
  | last => rfl
  | cut _ _ hmore ih =>
    obtain ⟨next, more, rfl⟩ := List.exists_cons_of_ne_nil hmore.ne_nil
    rw [join_cons_cons, ih, List.append_assoc]

theorem unparted (hne : sep ≠ []) (h : PartedAs sep t parts) :
    ∀ part ∈ parts, Unparted sep part := by
  induction h with
  | last hwhole => exact List.forall_mem_singleton.2 hwhole
  | cut _ hfirst _ ih => exact List.forall_mem_cons.2 ⟨hfirst.unparted hne, ih⟩

theorem topLevel (h : PartedAs sep t parts) : ∀ part ∈ parts.dropLast, TopLevel part := by
  induction h with
  | last => exact List.forall_mem_nil _
  | cut htop _ hmore ih =>
    rw [List.dropLast_cons_of_ne_nil hmore.ne_nil]
    exact List.forall_mem_cons.2 ⟨htop, ih⟩

end PartedAs

/-- The parts of a text, joined again, are the text; none of them is parted any further, and all but
the last end outside braces and escapes. -/
theorem splitTopLevel_lossless (hne : sep ≠ []) (hhead : ∀ c ∈ sep.head?, c ≠ '{' ∧ c ≠ '}')
    (t : Text) : join sep (splitTopLevel sep t) = t ∧
      (∀ part ∈ splitTopLevel sep t, splitTopLevel sep part = [part]) ∧
      ∀ part ∈ (splitTopLevel sep t).dropLast, TopLevel part := by
  have hparted := partedAs_splitTopLevel hne hhead t
  refine ⟨hparted.join_eq, fun part hpart => ?_, hparted.topLevel⟩
  exact splitTopLevel_of_unparted (hparted.unparted hne part hpart)

/-- A separator of two backslashes is none in braces, and a backslash at the end of the text makes
no unit. -/
theorem splitTopLevel_lossless_backslashes :
    let t : Text := "a\\\\\x7bb\\\\\x7d\\\x7d\\\\c\\"
    let parts : List Text := ["a", "\x7bb\\\\\x7d\\\x7d", "c\\"]
    splitTopLevel "\\\\" t = parts ∧ join "\\\\" parts = t ∧
      (∀ part ∈ parts, splitTopLevel "\\\\" part = [part]) ∧ TopLevel "\x7bb\\\\\x7d\\\x7d" := by
  intro t parts
  have hparts : splitTopLevel "\\\\" t = parts := by decide +kernel
  have hne : ("\\\\" : Text) ≠ [] := by decide +kernel
  have hhead : ∀ c ∈ ("\\\\" : Text).head?, c ≠ '{' ∧ c ≠ '}' := by
    intro c hc
    simp at hc
    subst hc
    decide
  have hlossless := splitTopLevel_lossless hne hhead t
  rw [hparts] at hlossless
  refine ⟨hparts, hlossless.1, hlossless.2.1, hlossless.2.2 _ ?_⟩
  exact List.mem_cons_of_mem _ (List.mem_cons_self ..)

end Source

end TexCatalog
