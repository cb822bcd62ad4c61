import TexCatalog.Walk.Notes

/-!
# Findings as a monoid

Findings and notes combine associatively, and nothing found is neutral on both sides. Style rules
are the delicate part: whether a line break goes between two of them depends on what stands in
front.
-/

namespace TexCatalog

namespace TextSet

@[simp] theorem not_mem_emptyCollection (t : Text) : t ∉ (∅ : TextSet) := not_mem_empty t

@[simp] theorem union_empty (s : TextSet) : s.union ∅ = s := rfl

@[simp] theorem empty_union (s : TextSet) : TextSet.union ∅ s = s := by
  apply ext_mem
  intro u
  rw [mem_union]
  exact or_iff_right (not_mem_empty u)

theorem union_assoc (s t u : TextSet) : (s.union t).union u = s.union (t.union u) := by
  apply ext_mem
  intro v
  simp only [mem_union, or_assoc]

end TextSet

namespace TextMap

variable {α : Type}

/-- Entries with keys of their own are found behind those there were. -/
theorem get?_foldl_insert {entries : List (Text × α)} (h : entries.Pairwise (·.1 ≠ ·.1))
    (m : TextMap α) (k : Text) :
    (entries.foldl (fun m e => m.insert e.1 e.2) m).get? k = (find k entries).or (m.get? k) := by
  induction entries generalizing m with
  | nil => rfl
  | cons e more ih =>
    obtain ⟨l, v⟩ := e
    rw [List.pairwise_cons] at h
    rw [List.foldl_cons, ih h.2, get?_insert]
    by_cases hl : l = k
    · subst hl
      have hno : find l more = none := find_eq_none fun e he => (h.1 e he).symm
      simp [find, hno]
    · simp [find, hl]

theorem keys_ne {entries : List (Text × α)} (h : entries.Pairwise (·.1 < ·.1)) :
    entries.Pairwise (·.1 ≠ ·.1) := by
  apply h.imp
  intro a b hab he
  rw [he] at hab
  exact List.lt_irrefl _ hab

/-- Of two maps the second counts where both have a key. -/
theorem get?_union (m n : TextMap α) (k : Text) :
    (m.union n).get? k = (n.get? k).or (m.get? k) :=
  get?_foldl_insert (keys_ne n.sorted) m k

@[simp] theorem union_empty (m : TextMap α) : m.union ∅ = m := rfl

@[simp] theorem empty_union (m : TextMap α) : TextMap.union ∅ m = m := by
  apply ext_get?
  intro k
  rw [get?_union]
  exact Option.or_none

theorem union_assoc (m n o : TextMap α) : (m.union n).union o = m.union (n.union o) := by
  apply ext_get?
  intro k
  simp only [get?_union, Option.or_assoc]

end TextMap

namespace Findings

/-- What goes between style rules and those that are put behind them depends on the former only. -/
def rulesBreak (a : Text) : Text := if a = [] ∨ a.getLast? = some '\n' then [] else ['\n']

theorem joinRules_eq (a b : Text) : joinRules a b = a ++ rulesBreak a ++ b := by
  unfold joinRules rulesBreak
  split <;> simp

/-- Behind a break the rules in front of it no longer matter. -/
theorem rulesBreak_append (a b : Text) : rulesBreak (a ++ (rulesBreak a ++ b)) = rulesBreak b := by
  by_cases hb : b = []
  · subst hb
    by_cases ha : a = [] ∨ a.getLast? = some '\n'
    · have hbreak : rulesBreak a = [] := if_pos ha
      simp only [hbreak, List.append_nil]
      rfl
    · have hbreak : rulesBreak a = ['\n'] := if_neg ha
      simp only [hbreak, List.append_nil]
      simp [rulesBreak]
  · have hlast : (a ++ (rulesBreak a ++ b)).getLast? = b.getLast? := by
      rw [← List.append_assoc, List.getLast?_append, List.getLast?_eq_some_getLast hb]
      rfl
    have hne : a ++ (rulesBreak a ++ b) ≠ [] := by simp [hb]
    generalize a ++ (rulesBreak a ++ b) = c at hlast hne
    simp only [rulesBreak, hlast, hne, hb, false_or]

theorem joinRules_assoc (a b c : Text) :
    joinRules (joinRules a b) c = joinRules a (joinRules b c) := by
  simp only [joinRules_eq, List.append_assoc, rulesBreak_append]

theorem joinCss_assoc (a b c : Option Text) :
    joinCss (joinCss a b) c = joinCss a (joinCss b c) := by
  cases a <;> cases b <;> cases c <;> simp [joinCss, joinRules_assoc]

theorem combine_assoc (a b c : Findings) : (a.combine b).combine c = a.combine (b.combine c) := by
  simp only [combine, TextSet.union_assoc, TextMap.union_assoc, joinCss_assoc, Option.or_assoc,
    List.append_assoc]

@[simp] theorem combine_empty (a : Findings) : a.combine {} = a := by
  have hcss : joinCss a.css none = a.css := by cases a.css <;> rfl
  simp [combine, hcss]

@[simp] theorem empty_combine (a : Findings) : combine {} a = a := by
  have hcss : joinCss none a.css = a.css := rfl
  simp [combine, hcss]

section

variable {a b : Findings} {t u : Text}

@[simp] theorem mem_labels_combine :
    t ∈ (a.combine b).labels ↔ t ∈ a.labels ∨ t ∈ b.labels := TextSet.mem_union

@[simp] theorem mem_citations_combine :
    t ∈ (a.combine b).citations ↔ t ∈ a.citations ∨ t ∈ b.citations := TextSet.mem_union

@[simp] theorem mem_urls_combine :
    t ∈ (a.combine b).urls ↔ t ∈ a.urls ∨ t ∈ b.urls := TextSet.mem_union

@[simp] theorem not_mem_labels_empty : t ∉ ({} : Findings).labels := TextSet.not_mem_empty t

@[simp] theorem not_mem_labels_ofCitation : t ∉ (ofCitation u).labels := TextSet.not_mem_empty t

end

end Findings

namespace Notes

theorem combine_assoc (a b c : Notes) : (a.combine b).combine c = a.combine (b.combine c) := by
  simp only [combine, Findings.combine_assoc, List.append_assoc]

@[simp] theorem combine_empty (a : Notes) : a.combine {} = a := by simp [combine]

@[simp] theorem empty_combine (a : Notes) : combine {} a = a := by simp [combine]

end Notes

end TexCatalog
