import TexCatalog.Text.Map
import TexCatalog.Text.Classes
import TexCatalog.Text.Lowercase
import TexCatalog.Source.Block

/-!
# Scanning BibTeX

A BibTeX text is a sequence of entries with anything but an at sign between them. A malformed entry
is passed over and counted; the reading goes on at the next at sign.
-/

namespace TexCatalog.Bibliography.Bibtex

open Source (onto)

/-- An entry as it stands in the text: the fields have lower-case names and untouched values. -/
structure RawEntry where
  type : Text
  key : Text
  fields : TextMap Text

/-- The text up to the brace that closes a group in which `depth` more are open. -/
def closeBraces : Nat → Text → Option (Text × Text)
  | _, [] => none
  | depth, c :: s =>
    if c = '{' then (closeBraces (depth + 1) s).map (onto [c])
    else if c = '}' then
      match depth with
      | 0 => some ([], s)
      | depth + 1 => (closeBraces depth s).map (onto [c])
    else (closeBraces depth s).map (onto [c])

def closeQuote : Text → Option (Text × Text)
  | [] => none
  | c :: s =>
    if c = '\\' then
      match s with
      | [] => none
      | d :: s => (closeQuote s).map (onto [c, d])
    else if c = '"' then some ([], s)
    else (closeQuote s).map (onto [c])

def run? (p : Char → Bool) (s : Text) : Option (Text × Text) :=
  if s.takeWhile p = [] then none else some (s.takeWhile p, s.dropWhile p)

/-- The rest of a text behind layout and one character. -/
def mark? (c : Char) (s : Text) : Option Text :=
  match Text.dropLayout s with
  | [] => none
  | d :: rest => if d = c then some rest else none

def value? (s : Text) : Option (Text × Text) :=
  match s with
  | '{' :: s => closeBraces 0 s
  | '"' :: s => closeQuote s
  | s => run? Text.isAlphanumeric s

def isFieldChar (c : Char) : Bool := Text.isAlphanumeric c || c == '_' || c == '-'

def isKeyChar (c : Char) : Bool :=
  Text.isAlphanumeric c || c == '_' || c == '-' || c == ':' || c == '.' || c == '+' || c == '/'

def field? (s : Text) : Option ((Text × Text) × Text) := do
  let (name, s) ← run? isFieldChar (Text.dropLayout s)
  let s ← mark? '=' s
  let (value, s) ← value? (Text.dropLayout s)
  some ((Text.lower name, value), s)

def dropComma (s : Text) : Text :=
  match Text.trimStart s with
  | ',' :: s => s
  | s => s

theorem closeBraces_lt {depth : Nat} {s v r : Text} (h : closeBraces depth s = some (v, r)) :
    r.length < s.length := by
  fun_induction closeBraces depth s generalizing v r <;>
    simp_all [onto, Option.map_eq_some_iff] <;> grind

theorem closeQuote_lt {s v r : Text} (h : closeQuote s = some (v, r)) : r.length < s.length := by
  fun_induction closeQuote s generalizing v r <;>
    simp_all [onto, Option.map_eq_some_iff] <;> grind

theorem run?_lt {p : Char → Bool} {s v r : Text} (h : run? p s = some (v, r)) :
    r.length < s.length := by
  unfold run? at h
  split at h
  · simp at h
  · next hne =>
    simp only [Option.some.injEq, Prod.mk.injEq] at h
    have hpos := List.length_pos_iff.2 hne
    have hlen := congrArg List.length (List.takeWhile_append_dropWhile (p := p) (l := s))
    rw [List.length_append] at hlen
    rw [← h.2]
    omega

theorem mark?_lt {c : Char} {s r : Text} (h : mark? c s = some r) : r.length < s.length := by
  have := Text.length_dropLayout_le s
  unfold mark? at h
  split at h
  · simp at h
  · next hs =>
    split at h
    · simp only [Option.some.injEq] at h
      subst h
      simp [hs] at this
      omega
    · simp at h

theorem value?_lt {s v r : Text} (h : value? s = some (v, r)) : r.length < s.length := by
  unfold value? at h
  split at h
  · exact Nat.lt_succ_of_lt (closeBraces_lt h)
  · exact Nat.lt_succ_of_lt (closeQuote_lt h)
  · exact run?_lt h

theorem field?_lt {s r : Text} {f : Text × Text} (h : field? s = some (f, r)) :
    r.length < s.length := by
  simp only [field?, bind, Option.bind_eq_some_iff] at h
  obtain ⟨⟨name, a⟩, ha, b, hb, ⟨value, c⟩, hc, he⟩ := h
  simp only [Option.some.injEq, Prod.mk.injEq] at he
  have := Text.length_dropLayout_le s
  have := Text.length_dropLayout_le b
  have := run?_lt ha
  have := mark?_lt hb
  have := value?_lt hc
  rw [← he.2]
  dsimp only at *
  omega

theorem length_dropComma_le (s : Text) : (dropComma s).length ≤ s.length := by
  have := Text.length_trimStart_le s
  unfold dropComma
  split
  · next hs => simp [hs] at this; omega
  · exact this

/-- The fields up to a closing brace or to what is no field; a later one replaces an earlier one. -/
def fields (m : TextMap Text) (s : Text) : TextMap Text × Text :=
  match Text.trimStart s with
  | [] => (m, [])
  | c :: rest =>
    if c = '}' then (m, c :: rest)
    else
      match _h : field? (Text.trimStart s) with
      | none => (m, c :: rest)
      | some ((name, value), rest) => fields (m.insert name value) (dropComma rest)
termination_by s.length
decreasing_by
  have := field?_lt _h
  have := Text.length_trimStart_le s
  have := length_dropComma_le rest
  omega

theorem fields_le (m : TextMap Text) (s : Text) : (fields m s).2.length ≤ s.length := by
  fun_induction fields m s with
  | case1 => simp
  | case2 m s rest h | case3 m s c rest h =>
    have := Text.length_trimStart_le s
    simpa [h] using this
  | case4 m s c rest hs _ name value rest' h ih =>
    have := field?_lt h
    have := Text.length_trimStart_le s
    have := length_dropComma_le rest'
    omega

def isDirective (type : Text) : Bool :=
  [("comment" : Text), "preamble", "string"].contains type

/-- What follows the group of a directive; a group without an end takes all of the text. -/
def directive? (s : Text) : Option Text :=
  match s with
  | '{' :: s =>
    match closeBraces 0 s with
    | some (_, rest) => some rest
    | none => some []
  | _ => none

def body? (type s : Text) : Option (RawEntry × Text) := do
  let s ← mark? '{' s
  let (key, s) ← run? isKeyChar (Text.dropLayout s)
  let s ← mark? ',' s
  let rest ← mark? '}' (fields ∅ s).2
  some ({ type, key, fields := (fields ∅ s).1 }, rest)

/-- What follows an at sign; a directive is no entry. -/
def entry? (s : Text) : Option (Option RawEntry × Text) :=
  match run? Text.isAlphanumeric s with
  | none => none
  | some (type, s) =>
    let type := Text.lower type
    if isDirective type then (directive? (Text.dropLayout s)).map fun rest => (none, rest)
    else (body? type s).map fun p => (some p.1, p.2)

theorem directive?_lt {s r : Text} (h : directive? s = some r) : r.length < s.length := by
  unfold directive? at h
  split at h
  · split at h
    · next hc =>
      simp only [Option.some.injEq] at h
      exact h ▸ Nat.lt_succ_of_lt (closeBraces_lt hc)
    · simp only [Option.some.injEq] at h
      simp [← h]
  · simp at h

theorem body?_lt {type s r : Text} {e : RawEntry} (h : body? type s = some (e, r)) :
    r.length < s.length := by
  simp only [body?, bind, Option.bind_eq_some_iff] at h
  obtain ⟨a, ha, ⟨key, b⟩, hb, c, hc, d, hd, he⟩ := h
  simp only [Option.some.injEq, Prod.mk.injEq] at he
  have := Text.length_dropLayout_le a
  have := mark?_lt ha
  have := run?_lt hb
  have := mark?_lt hc
  have := mark?_lt hd
  have := fields_le ∅ c
  rw [← he.2]
  dsimp only at *
  omega

theorem entry?_lt {s r : Text} {e : Option RawEntry} (h : entry? s = some (e, r)) :
    r.length < s.length := by
  unfold entry? at h
  split at h
  · simp at h
  · next type after ht =>
    have := run?_lt ht
    have := Text.length_dropLayout_le after
    simp only at h
    split at h
    · obtain ⟨rest, hd, he⟩ := Option.map_eq_some_iff.1 h
      have := directive?_lt hd
      simp only [Prod.mk.injEq] at he
      rw [← he.2]
      omega
    · obtain ⟨⟨raw, rest⟩, hb, he⟩ := Option.map_eq_some_iff.1 h
      have := body?_lt hb
      simp only [Prod.mk.injEq] at he
      rw [← he.2]
      omega

def scan (s : Text) : List RawEntry × Nat :=
  match _h : Source.skipComments s with
  | [] => ([], 0)
  | c :: rest =>
    if c = '@' then
      match _e : entry? rest with
      | some (some raw, rest) => (raw :: (scan rest).1, (scan rest).2)
      | some (none, rest) => scan rest
      | none =>
        ((scan (rest.dropWhile (· ≠ '@'))).1, (scan (rest.dropWhile (· ≠ '@'))).2 + 1)
    else scan (rest.dropWhile (· ≠ '@'))
termination_by s.length
decreasing_by
  all_goals
    have hs := Source.length_skipComments_le s
    rw [_h] at hs
    simp only [List.length_cons] at hs
    first
      | have he := entry?_lt _e
        omega
      | have hd := Text.length_dropWhile_le (· ≠ '@') rest
        omega

end TexCatalog.Bibliography.Bibtex
