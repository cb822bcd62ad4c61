import TexCatalog.Html.Escape

/-!
# Escaped text

The characters of markup are replaced one kind after the other, and no replacement makes a character
that a later one looks for. So the whole text is escaped character by character, and what comes out
has no character of markup but ampersands, each of which begins an entity. The entities can be
decoded again, so different texts are escaped differently.
-/

namespace TexCatalog.Html

def entity (c : Char) : Text :=
  if c = '&' then "&amp;"
  else if c = '<' then "&lt;"
  else if c = '>' then "&gt;"
  else if c = '"' then "&quot;"
  else [c]

def markupChars : List Char := ['&', '<', '>', '"']

def unescape : Text → Text
  | '&' :: 'a' :: 'm' :: 'p' :: ';' :: s => '&' :: unescape s
  | '&' :: 'l' :: 't' :: ';' :: s => '<' :: unescape s
  | '&' :: 'g' :: 't' :: ';' :: s => '>' :: unescape s
  | '&' :: 'q' :: 'u' :: 'o' :: 't' :: ';' :: s => '"' :: unescape s
  | c :: s => c :: unescape s
  | [] => []

theorem escape_append (s t : Text) : escape (s ++ t) = escape s ++ escape t := by
  simp only [escape, replaceChar, List.flatMap_append]

theorem replaceChar_singleton {c d : Char} (h : d ≠ c) (t : Text) : replaceChar c t [d] = [d] := by
  rw [replaceChar, List.flatMap_singleton, if_neg h]

theorem escape_singleton {c : Char} (h : c ∉ markupChars) : escape [c] = [c] := by
  simp only [markupChars, List.mem_cons, List.not_mem_nil, or_false, not_or] at h
  obtain ⟨hamp, hopen, hclose, hquote⟩ := h
  rw [escape, replaceChar_singleton hamp, replaceChar_singleton hopen, replaceChar_singleton hclose,
    replaceChar_singleton hquote]

theorem entity_of_not_mem {c : Char} (h : c ∉ markupChars) : entity c = [c] := by
  simp only [markupChars, List.mem_cons, List.not_mem_nil, or_false, not_or] at h
  obtain ⟨hamp, hopen, hclose, hquote⟩ := h
  rw [entity, if_neg hamp, if_neg hopen, if_neg hclose, if_neg hquote]

/-- No replacement changes what an earlier one has made. -/
theorem escape_char (c : Char) : escape [c] = entity c := by
  by_cases hc : c ∈ markupChars
  · simp only [markupChars, List.mem_cons, List.not_mem_nil, or_false] at hc
    rcases hc with rfl | rfl | rfl | rfl <;> decide_cbv
  · rw [escape_singleton hc, entity_of_not_mem hc]

theorem escape_cons (c : Char) (s : Text) : escape (c :: s) = entity c ++ escape s := by
  rw [← List.singleton_append, escape_append, escape_char]

theorem escape_eq_flatMap (s : Text) : escape s = s.flatMap entity := by
  induction s with
  | nil => rfl
  | cons c s ih => rw [escape_cons, ih, List.flatMap_cons]

theorem entity_inert (c : Char) : ∀ d ∈ entity c, d ≠ '<' ∧ d ≠ '>' ∧ d ≠ '"' := by
  by_cases hc : c ∈ markupChars
  · simp only [markupChars, List.mem_cons, List.not_mem_nil, or_false] at hc
    rcases hc with rfl | rfl | rfl | rfl <;> simp [entity]
  · rw [entity_of_not_mem hc, List.forall_mem_singleton]
    simp only [markupChars, List.mem_cons, List.not_mem_nil, or_false, not_or] at hc
    exact hc.2

theorem not_markup_of_mem_escape {s : Text} {c : Char} (h : c ∈ escape s) :
    c ≠ '<' ∧ c ≠ '>' ∧ c ≠ '"' := by
  rw [escape_eq_flatMap] at h
  obtain ⟨d, _, hd⟩ := List.mem_flatMap.1 h
  exact entity_inert d c hd

/-- In what a character is escaped to, an ampersand is the first character of an entity. -/
theorem entity_amp {c : Char} {u v : Text} (h : entity c = u ++ '&' :: v) :
    u = [] ∧ c ∈ markupChars := by
  by_cases hc : c ∈ markupChars
  · have htail : '&' ∉ (entity c).tail := by
      simp only [markupChars, List.mem_cons, List.not_mem_nil, or_false] at hc
      rcases hc with rfl | rfl | rfl | rfl <;> simp [entity]
    cases u with
    | nil => exact ⟨rfl, hc⟩
    | cons d u =>
      rw [h, List.cons_append, List.tail_cons] at htail
      exact absurd (List.mem_append_right u (List.mem_cons_self ..)) htail
  · rw [entity_of_not_mem hc] at h
    cases u with
    | nil =>
      obtain ⟨rfl, _⟩ := List.cons.inj h
      exact absurd (by decide) hc
    | cons d u => simp at h

theorem amp_begins_entity {s u v : Text} (h : escape s = u ++ '&' :: v) :
    ∃ c ∈ markupChars, entity c <+: '&' :: v := by
  induction s generalizing u with
  | nil => exact absurd h.symm (List.append_ne_nil_of_right_ne_nil u (List.cons_ne_nil _ v))
  | cons c s ih =>
    rw [escape_cons] at h
    rcases List.append_eq_append_iff.1 h with ⟨w, rfl, hs⟩ | ⟨w, hc, hw⟩
    · exact ih hs
    · cases w with
      | nil => exact ih (u := []) hw.symm
      | cons d w =>
        obtain ⟨rfl, rfl⟩ := List.cons.inj hw
        obtain ⟨rfl, hmem⟩ := entity_amp hc
        refine ⟨c, hmem, ?_⟩
        rw [hc]
        exact List.prefix_append _ _

/-! ### Decoding -/

theorem unescape_cons {c : Char} (h : c ≠ '&') (s : Text) :
    unescape (c :: s) = c :: unescape s := by
  rw [unescape.eq_def]
  split <;> simp_all

theorem unescape_entity (c : Char) (s : Text) : unescape (entity c ++ s) = c :: unescape s := by
  by_cases hc : c ∈ markupChars
  · have hamp : entity '&' = ['&', 'a', 'm', 'p', ';'] := by decide_cbv
    have hopen : entity '<' = ['&', 'l', 't', ';'] := by decide_cbv
    have hclose : entity '>' = ['&', 'g', 't', ';'] := by decide_cbv
    have hquote : entity '"' = ['&', 'q', 'u', 'o', 't', ';'] := by decide_cbv
    simp only [markupChars, List.mem_cons, List.not_mem_nil, or_false] at hc
    rcases hc with rfl | rfl | rfl | rfl
    · rw [hamp]
      rfl
    · rw [hopen]
      rfl
    · rw [hclose]
      rfl
    · rw [hquote]
      rfl
  · have hamp : c ≠ '&' := fun h => hc (h ▸ List.mem_cons_self ..)
    rw [entity_of_not_mem hc, List.singleton_append, unescape_cons hamp]

theorem unescape_escape (t : Text) : unescape (escape t) = t := by
  induction t with
  | nil => rfl
  | cons c s ih => rw [escape_cons, unescape_entity, ih]

/-- Escaping works on each character by itself. What comes out has no character of markup but
ampersands, each at the beginning of an entity, and it can be decoded. -/
theorem escape_by_character (s t : Text) :
    escape s = s.flatMap entity ∧ escape (s ++ t) = escape s ++ escape t ∧
      (∀ c ∈ escape s, c ≠ '<' ∧ c ≠ '>' ∧ c ≠ '"') ∧
      (∀ u v, escape s = u ++ '&' :: v → ∃ c ∈ markupChars, entity c <+: '&' :: v) ∧
      unescape (escape s) = s ∧ (escape s = escape t → s = t) := by
  refine ⟨escape_eq_flatMap s, escape_append s t, fun c => not_markup_of_mem_escape,
    fun u v => amp_begins_entity, unescape_escape s, fun h => ?_⟩
  calc
    s = unescape (escape s) := (unescape_escape s).symm
    _ = unescape (escape t) := by rw [h]
    _ = t := unescape_escape t

/-- An entity in a text is escaped as any other text. -/
theorem escape_by_character_entities :
    escape "<&lt;\"" = "&lt;&amp;lt;&quot;" ∧
      (∃ c ∈ markupChars, entity c <+: '&' :: "amp;lt;&quot;") ∧
      unescape "&lt;&amp;lt;&quot;" = "<&lt;\"" := by
  have hescape : escape "<&lt;\"" = "&lt;&amp;lt;&quot;" := by decide +kernel
  obtain ⟨_, _, _, hamp, hdecode, _⟩ := escape_by_character "<&lt;\"" "<&lt;\""
  rw [hescape] at hamp hdecode
  exact ⟨hescape, hamp "&lt;" "amp;lt;&quot;" (by decide +kernel), hdecode⟩

end TexCatalog.Html
