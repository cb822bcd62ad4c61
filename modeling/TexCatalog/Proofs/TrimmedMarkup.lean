import Mathlib.Data.List.Induction
import TexCatalog.Html.Tree
import TexCatalog.Proofs.EscapedText
import TexCatalog.Proofs.TrimmedText

/-!
# Trimmed markup

Markup without the blanks at its end is printed as the text of the markup without the blanks at its
end: escaping neither makes blanks nor takes them away, and every element ends in a bracket.
-/

namespace TexCatalog.Html

@[simp] theorem printAll_nil : printAll [] = [] := by simp [printAll]

@[simp] theorem printAll_cons (node : Html) (more : List Html) :
    printAll (node :: more) = node.print ++ printAll more := by simp [printAll]

@[simp] theorem printAll_append (a b : List Html) :
    printAll (a ++ b) = printAll a ++ printAll b := by
  induction a with
  | nil => simp
  | cons node more ih => simp [ih]

/-! ### Escaping and blanks -/

theorem escape_blank {c : Char} (h : c.isBlank = true) : escape [c] = [c] := by
  have hnone : ∀ d ∈ markupChars, ¬d.isBlank = true := by simp [markupChars, Char.isBlank]
  exact escape_singleton fun hc => hnone c hc h

/-- What a character is escaped to ends in a blank only if the character is one. -/
theorem escape_not_blank {c : Char} (h : ¬c.isBlank = true) :
    ∃ s d, escape [c] = s ++ [d] ∧ ¬d.isBlank = true := by
  have hentity : ¬(';' : Char).isBlank = true := by decide
  by_cases hc : c ∈ markupChars
  · simp only [markupChars, List.mem_cons, List.not_mem_nil, or_false] at hc
    rcases hc with rfl | rfl | rfl | rfl
    · exact ⟨"&amp", ';', by decide_cbv, hentity⟩
    · exact ⟨"&lt", ';', by decide_cbv, hentity⟩
    · exact ⟨"&gt", ';', by decide_cbv, hentity⟩
    · exact ⟨"&quot", ';', by decide_cbv, hentity⟩
  · exact ⟨[], c, escape_singleton hc, h⟩

theorem escape_trimEnd (t : Text) : escape (Text.trimEnd t) = Text.trimEnd (escape t) := by
  induction t using List.reverseRecOn with
  | nil => rfl
  | append_singleton s c ih =>
    by_cases hc : c.isBlank = true
    · have hblanks : ∀ d ∈ [c], d.isBlank := by simpa using hc
      rw [Text.trimEnd_blanks hblanks, ih, escape_append, escape_blank hc,
        Text.trimEnd_blanks hblanks]
    · obtain ⟨t, d, ht, hd⟩ := escape_not_blank hc
      rw [Text.trimEnd_append_singleton s hc, escape_append, ht, ← List.append_assoc,
        Text.trimEnd_append_singleton _ hd]

theorem escape_ne_nil {t : Text} (h : t ≠ []) : escape t ≠ [] := by
  obtain ⟨c, s, rfl⟩ := List.exists_cons_of_ne_nil h
  rw [← List.singleton_append, escape_append]
  by_cases hc : c.isBlank = true
  · simp [escape_blank hc]
  · obtain ⟨t, d, ht, _⟩ := escape_not_blank hc
    simp [ht]

/-! ### Markup -/

/-- Markup is trimmed as its print is, and nothing is left of it where nothing is left of that. -/
def TrimsTo (trimmed : List Html) (s : Text) : Prop :=
  printAll trimmed = Text.trimEnd s ∧ (trimmed ≠ [] → Text.trimEnd s ≠ [])

theorem trimText_trimsTo {make : Text → Html} {t : Text}
    (hprint : (make (Text.trimEnd t)).print = Text.trimEnd (make t).print)
    (hne : Text.trimEnd t ≠ [] → (make (Text.trimEnd t)).print ≠ [])
    (hblank : (make []).print = []) : TrimsTo (trimText make t) (make t).print := by
  have hisBlank : Text.isBlank t = true ↔ Text.trimEnd t = [] := by
    rw [Text.trimEnd_eq_nil, Text.isBlank, List.all_eq_true]
  unfold trimText
  split
  · next h =>
    rw [hisBlank.1 h, hblank] at hprint
    exact ⟨hprint, fun h => absurd rfl h⟩
  · next h =>
    rw [TrimsTo, ← hprint]
    exact ⟨by simp [printAll], fun _ => hne fun hnil => h (hisBlank.2 hnil)⟩

/-- A piece of markup that ends in no blank is left as it is. -/
theorem singleton_trimsTo {node : Html} {s : Text} {c : Char} (hprint : node.print = s ++ [c])
    (h : ¬c.isBlank = true) : TrimsTo [node] node.print := by
  rw [TrimsTo, hprint, Text.trimEnd_append_singleton s h]
  exact ⟨by simp [printAll, hprint], fun _ => by simp⟩

/-- What is left of markup is printed as what is left of its print. -/
theorem trimEnd_trimsTo (nodes : List Html) : TrimsTo (trimEnd nodes) (printAll nodes) := by
  induction nodes with
  | nil => exact ⟨rfl, fun h => absurd rfl h⟩
  | cons node more ih =>
    have hbracket : ¬('>' : Char).isBlank = true := by decide
    rw [printAll]
    unfold trimEnd
    split
    · next hmore =>
      rw [hmore] at ih
      rw [TrimsTo, Text.trimEnd_blanks (Text.trimEnd_eq_nil.1 ih.1.symm)]
      split
      · next t =>
        refine trimText_trimsTo ?_ ?_ ?_
        · simp only [print]
          exact escape_trimEnd t
        · simpa only [print] using escape_ne_nil
        · rw [print]
          rfl
      · next t =>
        refine trimText_trimsTo ?_ ?_ ?_
        · simp only [print]
        · simpa only [print] using id
        · rw [print]
      · next htext hraw =>
        obtain ⟨s, hs⟩ : ∃ s, node.print = s ++ ['>'] := by
          cases node with
          | text t => exact absurd rfl (htext t)
          | raw t => exact absurd rfl (hraw t)
          | element tag attrs content =>
            rw [print, Text.ofString_eq ">"]
            exact ⟨_, rfl⟩
          | void tag attrs =>
            rw [print, Text.ofString_eq ">"]
            exact ⟨_, rfl⟩
        exact singleton_trimsTo hs hbracket
    · next rest hmore =>
      have hne : Text.trimEnd (printAll more) ≠ [] := ih.2 hmore
      rw [TrimsTo, (Text.trimEnd_append (mt Text.trimEnd_eq_nil.2 hne) _).1, printAll, ih.1]
      exact ⟨rfl, fun _ => by simp [hne]⟩

end TexCatalog.Html
