import TexCatalog.Source.Group

/-!
# Parts at brace depth zero

Cutting a text at a separator where no brace is open. An escaped character never separates, unless
the separator itself begins there, and a closing brace without a partner is ignored.
-/

namespace TexCatalog.Source

/-- The parts of a text of which `skip` characters are left of the last separator and in which
`depth` braces are open. -/
def splitFrom (sep : Text) : Nat → Nat → Text → List Text
  | _, _, [] => [[]]
  | skip + 1, depth, _ :: s => splitFrom sep skip depth s
  | 0, depth, c :: s =>
    if c = '{' then Text.consHead c (splitFrom sep 0 (depth + 1) s)
    else if c = '}' then Text.consHead c (splitFrom sep 0 (depth - 1) s)
    else if depth = 0 ∧ sep.isPrefixOf (c :: s) then
      match sep.length with
      | 0 => [] :: Text.consHead c (splitFrom sep 0 depth s)
      | n + 1 => [] :: splitFrom sep n depth s
    else if c = '\\' then
      match s with
      | [] => [[c]]
      | d :: s => Text.consHead c (Text.consHead d (splitFrom sep 0 depth s))
    else Text.consHead c (splitFrom sep 0 depth s)

def splitTopLevel (sep s : Text) : List Text := splitFrom sep 0 0 s

/-- What stands before the first occurrence of a delimiter that is not escaped, and what stands
after it. -/
def cutUnescaped? (delim : Text) : Text → Option (Text × Text)
  | [] => none
  | c :: s =>
    if c = '\\' ∧ delim.head? ≠ some '\\' then
      match s with
      | [] => none
      | d :: s => (cutUnescaped? delim s).map (onto [c, d])
    else
      match delim.isPrefixOf? (c :: s) with
      | some rest => some ([], rest)
      | none => (cutUnescaped? delim s).map (onto [c])

theorem cutUnescaped?_eq {delim s v r : Text} (h : cutUnescaped? delim s = some (v, r)) :
    s = v ++ delim ++ r := by
  fun_induction cutUnescaped? delim s generalizing v r with
  | case1 => simp at h
  | case2 => simp at h
  | case3 c _ d s ih =>
    obtain ⟨⟨v', r'⟩, hp, he⟩ := Option.map_eq_some_iff.1 h
    simp only [onto, Prod.mk.injEq] at he
    obtain ⟨rfl, rfl⟩ := he
    simp [ih hp]
  | case4 c s _ rest hr =>
    simp only [Option.some.injEq, Prod.mk.injEq] at h
    obtain ⟨rfl, rfl⟩ := h
    simpa using Text.isPrefixOf?_eq_some.1 hr
  | case5 c s _ _ ih =>
    obtain ⟨⟨v', r'⟩, hp, he⟩ := Option.map_eq_some_iff.1 h
    simp only [onto, Prod.mk.injEq] at he
    obtain ⟨rfl, rfl⟩ := he
    simp [ih hp]

end TexCatalog.Source
