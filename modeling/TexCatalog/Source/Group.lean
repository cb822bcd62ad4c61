import TexCatalog.Text.Blank

/-!
# Command names and argument groups

The smallest pieces of page source: a control word, its star, and the groups in braces or brackets
behind it. A reader gives the piece it read and the rest of the text, or nothing. A backslash and
the character after it count as one unit, so an escaped brace opens and closes nothing.
-/

namespace TexCatalog.Source

/-- Put characters in front of the piece that was read. -/
def onto (front : Text) (r : Text × Text) : Text × Text := (front ++ r.1, r.2)

/-- A control word `\name` without its backslash. -/
def commandName? : Text → Option (Text × Text)
  | [] => none
  | c :: s =>
    if c = '\\' then
      let name := s.takeWhile Char.isAlpha
      if name = [] then none else some (name, s.dropWhile Char.isAlpha)
    else none

def star : Text → Bool × Text
  | [] => (false, [])
  | c :: s => if c = '*' then (true, s) else (false, c :: s)

/-- The text up to the brace that closes a group in which `depth` more groups are open. -/
def closeBrace : Nat → Text → Option (Text × Text)
  | _, [] => none
  | depth, c :: s =>
    if c = '\\' then
      match s with
      | [] => none
      | d :: s => (closeBrace depth s).map (onto [c, d])
    else if c = '{' then (closeBrace (depth + 1) s).map (onto [c])
    else if c = '}' then
      match depth with
      | 0 => some ([], s)
      | depth + 1 => (closeBrace depth s).map (onto [c])
    else (closeBrace depth s).map (onto [c])

def braced? : Text → Option (Text × Text)
  | [] => none
  | c :: s => if c = '{' then closeBrace 0 s else none

/-- The text up to the bracket that closes a group in which `depth` more brackets and `braces`
braces are open. Brackets inside braces do not count, nor does a closing brace without a partner. -/
def closeBracket : Nat → Nat → Text → Option (Text × Text)
  | _, _, [] => none
  | depth, braces, c :: s =>
    if c = '\\' then
      match s with
      | [] => none
      | d :: s => (closeBracket depth braces s).map (onto [c, d])
    else if c = '{' then (closeBracket depth (braces + 1) s).map (onto [c])
    else if c = '}' then (closeBracket depth (braces - 1) s).map (onto [c])
    else if c = '[' ∧ braces = 0 then (closeBracket (depth + 1) braces s).map (onto [c])
    else if c = ']' ∧ braces = 0 then
      match depth with
      | 0 => some ([], s)
      | depth + 1 => (closeBracket depth braces s).map (onto [c])
    else (closeBracket depth braces s).map (onto [c])

def bracketed? : Text → Option (Text × Text)
  | [] => none
  | c :: s => if c = '[' then closeBracket 0 0 s else none

def spacedBraced? (s : Text) : Option (Text × Text) := braced? (Text.dropLayout s)

def spacedBracketed? (s : Text) : Option (Text × Text) := bracketed? (Text.dropLayout s)

def group? (s : Text) : Option (Text × Text) :=
  match bracketed? s with
  | some (v, rest) => some ('[' :: v ++ [']'], rest)
  | none => (braced? s).map fun p => ('{' :: p.1 ++ ['}'], p.2)

/-- A reading splits the text into the closed part, the closing brace and the rest. -/
theorem closeBrace_eq {depth : Nat} {s v r : Text} (h : closeBrace depth s = some (v, r)) :
    s = v ++ '}' :: r := by
  fun_induction closeBrace depth s generalizing v r <;>
    simp_all [onto, Option.map_eq_some_iff] <;> grind

theorem closeBracket_eq {depth braces : Nat} {s v r : Text}
    (h : closeBracket depth braces s = some (v, r)) : s = v ++ ']' :: r := by
  fun_induction closeBracket depth braces s generalizing v r <;>
    simp_all [onto, Option.map_eq_some_iff] <;> grind

theorem braced?_eq {s v r : Text} (h : braced? s = some (v, r)) :
    s = '{' :: v ++ '}' :: r := by
  cases s with
  | nil => simp [braced?] at h
  | cons c s =>
    simp only [braced?] at h
    split at h
    · next hc => simp [hc, closeBrace_eq h]
    · simp at h

theorem bracketed?_eq {s v r : Text} (h : bracketed? s = some (v, r)) :
    s = '[' :: v ++ ']' :: r := by
  cases s with
  | nil => simp [bracketed?] at h
  | cons c s =>
    simp only [bracketed?] at h
    split at h
    · next hc => simp [hc, closeBracket_eq h]
    · simp at h

/-- A group and the rest behind it are the text. -/
theorem group?_eq {s g r : Text} (h : group? s = some (g, r)) : s = g ++ r := by
  unfold group? at h
  split at h
  · next v rest hb =>
    simp only [Option.some.injEq, Prod.mk.injEq] at h
    obtain ⟨rfl, rfl⟩ := h
    simpa using bracketed?_eq hb
  · obtain ⟨⟨v, rest⟩, hb, he⟩ := Option.map_eq_some_iff.1 h
    simp only [Prod.mk.injEq] at he
    obtain ⟨rfl, rfl⟩ := he
    simpa using braced?_eq hb

theorem group?_length_lt {s g r : Text} (h : group? s = some (g, r)) : r.length < s.length := by
  have hs := group?_eq h
  have hg : g ≠ [] := by
    unfold group? at h
    split at h
    · simp at h; simp [← h.1]
    · simp at h; obtain ⟨v, _, hv⟩ := h; simp [← hv]
  have : 0 < g.length := List.length_pos_iff.2 hg
  simp [hs]
  omega

/-- The groups that stand directly one behind the other, as one text. -/
def groups (s : Text) : Text × Text :=
  match _h : group? s with
  | none => ([], s)
  | some (g, rest) => onto g (groups rest)
termination_by s.length
decreasing_by exact group?_length_lt _h

theorem groups_eq (s : Text) : (groups s).1 ++ (groups s).2 = s := by
  fun_induction groups s with
  | case1 => rfl
  | case2 s g rest h ih => simp [onto, ih, (group?_eq h).symm]

/-- A command together with its star and the groups directly behind it, such as
`\cite[p. 3]{Cor14}`. -/
def rawCommand? (s : Text) : Option (Text × Text) :=
  match commandName? s with
  | none => none
  | some (name, afterName) =>
    let (starred, afterStar) := star afterName
    let stars : Text := if starred then ['*'] else []
    some (onto ('\\' :: name ++ stars) (groups afterStar))

theorem commandName?_eq {s name r : Text} (h : commandName? s = some (name, r)) :
    s = '\\' :: name ++ r := by
  cases s with
  | nil => simp [commandName?] at h
  | cons c s =>
    simp only [commandName?] at h
    split at h
    · next hc =>
      split at h
      · simp at h
      · simp only [Option.some.injEq, Prod.mk.injEq] at h
        obtain ⟨rfl, rfl⟩ := h
        simp [hc, List.takeWhile_append_dropWhile]
    · simp at h

theorem star_eq (s : Text) : (if (star s).1 then ['*'] else []) ++ (star s).2 = s := by
  cases s with
  | nil => rfl
  | cons c s =>
    simp only [star]
    split <;> simp_all

theorem rawCommand?_eq {s raw r : Text} (h : rawCommand? s = some (raw, r)) : s = raw ++ r := by
  unfold rawCommand? at h
  split at h
  · simp at h
  · next name after hn =>
    have hs := star_eq after
    have hg := groups_eq (star after).2
    simp only [onto, Option.some.injEq, Prod.mk.injEq] at h
    obtain ⟨rfl, rfl⟩ := h
    rw [commandName?_eq hn]
    simp only [List.cons_append, List.append_assoc, hg, hs]

theorem rawCommand?_ne_nil {s raw r : Text} (h : rawCommand? s = some (raw, r)) : raw ≠ [] := by
  unfold rawCommand? at h
  split at h
  · simp at h
  · simp only [onto, Option.some.injEq, Prod.mk.injEq] at h
    simp [← h.1]

end TexCatalog.Source
