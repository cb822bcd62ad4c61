import TexCatalog.Proofs.SpelledText

/-!
# Balanced brackets and braces

A group ends at its own bracket or brace if those in it have their partners in it. Inside braces
brackets are characters like any other, and a backslash makes one unit with what stands behind it.
-/

namespace TexCatalog

namespace Source

open Text

/-- Every brace in the text has its partner in the text. -/
inductive BraceBalanced : Text → Prop
  | nil : BraceBalanced []
  | char {c : Char} {s : Text} :
    c ∉ ("\\\x7b\x7d" : Text) → BraceBalanced s → BraceBalanced (c :: s)
  | escaped (c : Char) {s : Text} : BraceBalanced s → BraceBalanced ('\\' :: c :: s)
  | group {t s : Text} : BraceBalanced t → BraceBalanced s → BraceBalanced ('{' :: (t ++ '}' :: s))

/-- Every brace in the text has its partner, and so has every bracket that is not inside braces. -/
inductive GroupBalanced : Text → Prop
  | nil : GroupBalanced []
  | char {c : Char} {s : Text} : c ∉ ("\\\x7b\x7d[]" : Text) → GroupBalanced s →
    GroupBalanced (c :: s)
  | escaped (c : Char) {s : Text} : GroupBalanced s → GroupBalanced ('\\' :: c :: s)
  | braces {t s : Text} : BraceBalanced t → GroupBalanced s → GroupBalanced ('{' :: (t ++ '}' :: s))
  | brackets {t s : Text} : GroupBalanced t → GroupBalanced s →
    GroupBalanced ('[' :: (t ++ ']' :: s))

theorem BraceBalanced.of_plain {t : Text} (h : ∀ c ∈ t, c ∉ ("\\\x7b\x7d" : Text)) :
    BraceBalanced t := by
  induction t with
  | nil => exact .nil
  | cons c t ih =>
    rw [List.forall_mem_cons] at h
    exact .char h.1 (ih h.2)

theorem BraceBalanced.append {t s : Text} (ht : BraceBalanced t) (hs : BraceBalanced s) :
    BraceBalanced (t ++ s) := by
  induction ht with
  | nil => exact hs
  | char hc _ ih => exact .char hc ih
  | escaped c _ ih => exact .escaped c ih
  | group hinside _ _ ih =>
    rw [List.cons_append, List.append_assoc, List.cons_append]
    exact .group hinside ih

/-- A group in braces around a balanced text ends behind it. -/
theorem BraceBalanced.passesBraces {t : Text} (h : BraceBalanced t) : PassesBraces t := by
  induction h with
  | nil => exact .nil
  | char hc _ ih => exact ih.cons hc
  | escaped c _ ih => exact (PassesBraces.escaped c).append ih
  | group _ _ iht ihs =>
    have h := iht.group.append ihs
    rwa [List.cons_append, List.append_assoc, List.singleton_append] at h

/-- The text closes `depth` braces that are open in front of it, with balanced texts in between. -/
inductive ClosesBraces : Nat → Text → Prop
  | balanced {t : Text} : BraceBalanced t → ClosesBraces 0 t
  | closing {depth : Nat} {t s : Text} : BraceBalanced t → ClosesBraces depth s →
    ClosesBraces (depth + 1) (t ++ '}' :: s)

namespace ClosesBraces

variable {depth : Nat} {t s : Text}

theorem behind (ht : BraceBalanced t) (h : ClosesBraces depth s) : ClosesBraces depth (t ++ s) := by
  cases h with
  | balanced hs => exact .balanced (ht.append hs)
  | closing hu hs =>
    rw [← List.append_assoc]
    exact .closing (ht.append hu) hs

theorem opening (h : ClosesBraces (depth + 1) s) : ClosesBraces depth ('{' :: s) := by
  cases h with
  | closing ht hs =>
    have hgroup := hs.behind (.group ht .nil)
    rwa [List.cons_append, List.append_assoc] at hgroup

/-- What is read up to a closing brace closes what is open when the reading begins. -/
theorem of_closeBrace {v r : Text} (h : closeBrace depth s = some (v, r)) :
    ClosesBraces depth v := by
  fun_induction closeBrace depth s generalizing v r with
  | case1 | case2 => cases h
  | case3 depth d s ih =>
    obtain ⟨p, hp, hv⟩ := Option.map_eq_some_iff.1 h
    cases hv
    exact (ih hp).behind (.escaped d .nil)
  | case4 depth s _ ih =>
    obtain ⟨p, hp, hv⟩ := Option.map_eq_some_iff.1 h
    cases hv
    exact (ih hp).opening
  | case5 s =>
    cases h
    exact .balanced .nil
  | case6 s _ _ depth ih =>
    obtain ⟨p, hp, hv⟩ := Option.map_eq_some_iff.1 h
    cases hv
    exact .closing .nil (ih hp)
  | case7 depth c s hslash hopen hclose ih =>
    obtain ⟨p, hp, hv⟩ := Option.map_eq_some_iff.1 h
    cases hv
    exact (ih hp).behind (.char (by simp [hslash, hopen, hclose]) .nil)

end ClosesBraces

/-- A text is balanced exactly if a group in braces around it ends behind it. -/
theorem braceBalanced_iff_closed {t : Text} : BraceBalanced t ↔ Closed t := by
  refine ⟨fun h => h.passesBraces.braced? [], fun h => ?_⟩
  rw [Closed, braced?, if_pos rfl] at h
  cases ClosesBraces.of_closeBrace h with
  | balanced hbalanced => exact hbalanced

instance (t : Text) : Decidable (BraceBalanced t) :=
  decidable_of_iff _ braceBalanced_iff_closed.symm

theorem GroupBalanced.behind_plain {t s : Text} (h : ∀ c ∈ t, c ∉ ("\\\x7b\x7d[]" : Text))
    (hs : GroupBalanced s) : GroupBalanced (t ++ s) := by
  induction t with
  | nil => exact hs
  | cons c t ih =>
    rw [List.forall_mem_cons] at h
    exact .char h.1 (ih h.2)

section

variable {c : Char} (s : Text) (depth braces : Nat)

theorem closeBracket_char (h : c ∉ ("\\\x7b\x7d[]" : Text)) :
    closeBracket depth braces (c :: s) = (closeBracket depth braces s).map (onto [c]) := by
  simp only [ofString_eq, String.reduceToList, List.mem_cons, List.not_mem_nil, or_false,
    not_or] at h
  rw [closeBracket.eq_def]
  simp [h]

theorem closeBracket_char_in_braces (h : c ∉ ("\\\x7b\x7d" : Text)) :
    closeBracket depth (braces + 1) (c :: s) =
      (closeBracket depth (braces + 1) s).map (onto [c]) := by
  simp only [ofString_eq, String.reduceToList, List.mem_cons, List.not_mem_nil, or_false,
    not_or] at h
  rw [closeBracket.eq_def]
  simp [h]

theorem closeBracket_escaped (c : Char) :
    closeBracket depth braces ('\\' :: c :: s) =
      (closeBracket depth braces s).map (onto ['\\', c]) := by
  rw [closeBracket.eq_def]
  simp

theorem closeBracket_openBrace :
    closeBracket depth braces ('{' :: s) =
      (closeBracket depth (braces + 1) s).map (onto ['{']) := by
  rw [closeBracket.eq_def]
  simp

theorem closeBracket_closeBrace :
    closeBracket depth (braces + 1) ('}' :: s) =
      (closeBracket depth braces s).map (onto ['}']) := by
  rw [closeBracket.eq_def]
  simp

theorem closeBracket_openBracket :
    closeBracket depth 0 ('[' :: s) = (closeBracket (depth + 1) 0 s).map (onto ['[']) := by
  rw [closeBracket.eq_def]
  simp

theorem closeBracket_closeBracket :
    closeBracket (depth + 1) 0 (']' :: s) = (closeBracket depth 0 s).map (onto [']']) := by
  rw [closeBracket.eq_def]
  simp

end

/-- Inside braces the search for a closing bracket goes through a text that closes its braces. -/
theorem BraceBalanced.closeBracket {t : Text} (h : BraceBalanced t) (depth braces : Nat)
    (r : Text) : closeBracket depth (braces + 1) (t ++ r) =
      (closeBracket depth (braces + 1) r).map (onto t) := by
  induction h generalizing braces r with
  | nil => exact (map_onto_nil _).symm
  | char hc _ ih =>
    rw [List.cons_append, closeBracket_char_in_braces _ _ _ hc, ih, map_onto_onto]
    rfl
  | escaped c _ ih =>
    rw [List.cons_append, List.cons_append, closeBracket_escaped, ih, map_onto_onto]
    rfl
  | group _ _ iht ihs =>
    rw [List.cons_append, List.append_assoc, List.cons_append, closeBracket_openBrace, iht,
      closeBracket_closeBrace, ihs]
    simp only [map_onto_onto]
    simp

/-- Outside braces it goes through a text that closes its brackets as well. -/
theorem GroupBalanced.closeBracket {t : Text} (h : GroupBalanced t) (depth : Nat) (r : Text) :
    closeBracket depth 0 (t ++ r) = (closeBracket depth 0 r).map (onto t) := by
  induction h generalizing depth r with
  | nil => exact (map_onto_nil _).symm
  | char hc _ ih =>
    rw [List.cons_append, closeBracket_char _ _ _ hc, ih, map_onto_onto]
    rfl
  | escaped c _ ih =>
    rw [List.cons_append, List.cons_append, closeBracket_escaped, ih, map_onto_onto]
    rfl
  | braces ht _ ih =>
    rw [List.cons_append, List.append_assoc, List.cons_append, closeBracket_openBrace,
      ht.closeBracket, closeBracket_closeBrace, ih]
    simp only [map_onto_onto]
    simp
  | brackets _ _ iht ihs =>
    rw [List.cons_append, List.append_assoc, List.cons_append, closeBracket_openBracket, iht,
      closeBracket_closeBracket, ihs]
    simp only [map_onto_onto]
    simp

/-- A group in brackets around a balanced text ends behind it. -/
theorem GroupBalanced.bracketed? {t : Text} (h : GroupBalanced t) (r : Text) :
    bracketed? ('[' :: (t ++ ']' :: r)) = some (t, r) := by
  have hclose : Source.closeBracket 0 0 (']' :: r) = some ([], r) := by
    rw [closeBracket.eq_def]
    simp
  rw [Source.bracketed?, if_pos rfl, h.closeBracket, hclose]
  simp [onto]

end Source

end TexCatalog
