import TexCatalog.Source.Group

/-!
# Environments

An environment runs from `\begin{name}` to the `\end{name}` that closes it; environments of the
same name inside it are counted, others are not looked at.
-/

namespace TexCatalog.Source

structure Environment where
  name : Text
  body : Text
  /-- Everything from `\begin` to the closing brace of `\end{name}`. -/
  source : Text
  deriving DecidableEq, Repr

def isNameChar (c : Char) : Bool := c.isAlphanum || c == '*'

/-- The name in `\begin{name}`; layout may stand before the brace. -/
def openEnvironment? (s : Text) : Option (Text × Text) :=
  match ("\\begin" : Text).isPrefixOf? s with
  | none => none
  | some s =>
    match Text.dropLayout s with
    | [] => none
    | c :: s =>
      match s.dropWhile isNameChar with
      | [] => none
      | d :: rest =>
        if c = '{' ∧ d = '}' ∧ s.takeWhile isNameChar ≠ [] then
          some (s.takeWhile isNameChar, rest)
        else none

def opener (name : Text) : Text := "\\begin\x7b" ++ name ++ "\x7d"

def closer (name : Text) : Text := "\\end\x7b" ++ name ++ "\x7d"

/-- The text up to the `\end{name}` that closes an environment in which `depth` more environments
of this name are open. -/
def closeEnvironment (name : Text) : Nat → Text → Option (Text × Text)
  | _, [] => none
  | depth, c :: s =>
    match (closer name).isPrefixOf? (c :: s) with
    | some rest =>
      match depth with
      | 0 => some ([], rest)
      | depth + 1 => (closeEnvironment name depth s).map (onto [c])
    | none =>
      if (opener name).isPrefixOf (c :: s) then
        (closeEnvironment name (depth + 1) s).map (onto [c])
      else (closeEnvironment name depth s).map (onto [c])

def environment? (s : Text) : Option (Environment × Text) :=
  match openEnvironment? s with
  | none => none
  | some (name, afterName) =>
    match closeEnvironment name 0 afterName with
    | none => none
    | some (body, rest) =>
      some ({ name, body, source := s.take (s.length - rest.length) }, rest)

theorem closeEnvironment_eq {name : Text} {depth : Nat} {s v r : Text}
    (h : closeEnvironment name depth s = some (v, r)) : s = v ++ closer name ++ r := by
  fun_induction closeEnvironment name depth s generalizing v r with
  | case1 => simp at h
  | case2 c s rest hr =>
    simp only [Option.some.injEq, Prod.mk.injEq] at h
    obtain ⟨rfl, rfl⟩ := h
    simpa using Text.isPrefixOf?_eq_some.1 hr
  | case3 c s _ _ _ ih | case4 _ c s _ _ ih | case5 _ c s _ _ ih =>
    obtain ⟨⟨v', r'⟩, hp, he⟩ := Option.map_eq_some_iff.1 h
    simp only [onto, Prod.mk.injEq] at he
    obtain ⟨rfl, rfl⟩ := he
    simp [ih hp]

theorem openEnvironment?_eq {s name r : Text} (h : openEnvironment? s = some (name, r)) :
    ∃ gap : Text, s = "\\begin" ++ gap ++ '{' :: name ++ '}' :: r ∧ name ≠ [] ∧
      gap.all Char.isLayout ∧ name.all isNameChar := by
  unfold openEnvironment? at h
  split at h
  · simp at h
  · next s' hb =>
    rw [Text.isPrefixOf?_eq_some] at hb
    have hgap := List.takeWhile_append_dropWhile (p := Char.isLayout) (l := s')
    split at h
    · simp at h
    · next c t hd =>
      simp only [Text.dropLayout] at hd
      simp only [hd] at hgap
      have hname := List.takeWhile_append_dropWhile (p := isNameChar) (l := t)
      split at h
      · simp at h
      · next d rest hdr =>
        simp only [hdr] at hname
        split at h
        · next hc =>
          simp only [Option.some.injEq, Prod.mk.injEq] at h
          obtain ⟨rfl, rfl⟩ := h
          refine ⟨s'.takeWhile Char.isLayout, ?_, hc.2.2, ?_, ?_⟩
          · have e : s' = s'.takeWhile Char.isLayout ++
                '{' :: (t.takeWhile isNameChar ++ '}' :: rest) := by
              rw [← hc.1, ← hc.2.1, hname, hgap]
            rw [hb]
            conv => lhs; rw [e]
            simp only [List.append_assoc, List.cons_append]
          · simp
          · simp
        · simp at h

theorem environment?_eq {s r : Text} {e : Environment} (h : environment? s = some (e, r)) :
    s = e.source ++ r ∧ e.name ≠ [] ∧ ∃ gap : Text, gap.all Char.isLayout ∧
      e.source = "\\begin" ++ gap ++ '{' :: e.name ++ '}' :: e.body ++ closer e.name := by
  unfold environment? at h
  split at h
  · simp at h
  · next name after ho =>
    split at h
    · simp at h
    · next body rest hc =>
      simp only [Option.some.injEq, Prod.mk.injEq] at h
      obtain ⟨rfl, rfl⟩ := h
      obtain ⟨gap, hs, hn, hg, _⟩ := openEnvironment?_eq ho
      have hb := closeEnvironment_eq hc
      have hs' : s = ("\\begin" ++ gap ++ '{' :: name ++ '}' :: body ++ closer name) ++ rest := by
        rw [hs, hb]; simp
      have ht : s.take (s.length - rest.length) =
          "\\begin" ++ gap ++ '{' :: name ++ '}' :: body ++ closer name := by
        rw [hs']
        exact List.take_left' (by simp only [List.length_append]; omega)
      exact ⟨by simp only [ht]; exact hs', hn, gap, hg, ht⟩

theorem length_closer (name : Text) : (closer name).length = name.length + 6 := by
  simp [closer]

theorem environment?_length {s r : Text} {e : Environment} (h : environment? s = some (e, r)) :
    r.length + e.body.length + 14 < s.length := by
  obtain ⟨hs, hn, gap, _, he⟩ := environment?_eq h
  have hpos : 0 < e.name.length := List.length_pos_iff.2 hn
  have hsource : s.length = e.source.length + r.length := by rw [hs]; simp
  have hlength : e.source.length =
      8 + gap.length + e.name.length + e.body.length + (closer e.name).length := by
    rw [he]
    simp
    omega
  rw [length_closer] at hlength
  omega

end TexCatalog.Source
