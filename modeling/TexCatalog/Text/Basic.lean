/-!
# Text

A text is the list of its characters. This module has the operations that cut, split, join and
replace; each is a recursion on the list, so a rest is visibly a suffix of what was read.
-/

namespace TexCatalog

abbrev Text := List Char

namespace Text

/-- The characters of a string. It is irreducible so that a literal is evaluated only on demand. -/
@[irreducible] def ofString (s : String) : Text := s.toList

@[simp] theorem ofString_eq (s : String) : ofString s = s.toList := by
  unfold ofString
  rfl

end Text

instance : Coe String Text := ⟨Text.ofString⟩

namespace Text

/-- What stands before the first occurrence of `sep`, and what stands after it. -/
def cut? (sep : Text) : Text → Option (Text × Text)
  | [] => if sep = [] then some ([], []) else none
  | c :: s =>
    match sep.isPrefixOf? (c :: s) with
    | some rest => some ([], rest)
    | none => (cut? sep s).map fun p => (c :: p.1, p.2)

/-- What stands before the last occurrence of `sep`, and what stands after it. -/
def cutLast? (sep : Text) : Text → Option (Text × Text)
  | [] => if sep = [] then some ([], []) else none
  | c :: s =>
    match cutLast? sep s with
    | some p => some (c :: p.1, p.2)
    | none => (sep.isPrefixOf? (c :: s)).map fun rest => ([], rest)

/-- Is `part` a contiguous piece of the text? -/
def occursIn (part s : Text) : Bool := (cut? part s).isSome

/-- The text without `tail` at its end, if it ends so. -/
def dropEnd? (tail s : Text) : Option Text :=
  (tail.reverse.isPrefixOf? s.reverse).map List.reverse

def consHead (c : Char) : List Text → List Text
  | [] => [[c]]
  | part :: parts => (c :: part) :: parts

/-- The parts between the characters that satisfy `p`; there is always at least one. -/
def splitWhere (p : Char → Bool) : Text → List Text
  | [] => [[]]
  | c :: s => if p c then [] :: splitWhere p s else consHead c (splitWhere p s)

def split (sep : Char) : Text → List Text := splitWhere (· == sep)

def segments : Text → List Text
  | [] => []
  | c :: s =>
    if c = '\n' then [c] :: segments s
    else
      match segments s with
      | [] => [[c]]
      | line :: more => (c :: line) :: more

/-- A line without its line break, which is `\n` or `\r\n`. -/
def withoutBreak (line : Text) : Text :=
  match dropEnd? ['\n'] line with
  | none => line
  | some body => (dropEnd? ['\r'] body).getD body

def lines (s : Text) : List Text := (segments s).map withoutBreak

/-- The parts in a row, with `sep` between neighbours. -/
def join (sep : Text) : List Text → Text
  | [] => []
  | [part] => part
  | part :: more => part ++ sep ++ join sep more

/-- Replace the occurrences of `old` from the left, once `skip` characters have been dropped. -/
def replaceFrom (old new : Text) : Nat → Text → Text
  | _, [] => []
  | skip + 1, _ :: s => replaceFrom old new skip s
  | 0, c :: s =>
    if old.isPrefixOf (c :: s) then new ++ replaceFrom old new (old.length - 1) s
    else c :: replaceFrom old new 0 s

/-- Replace every occurrence of a non-empty `old`, from the left and without overlaps. -/
def replace (old new s : Text) : Text := replaceFrom old new 0 s

def ofNat (n : Nat) : Text := Nat.toDigits 10 n

/-- Decimal digits of an integer, behind a minus sign if it is negative. -/
def ofInt : Int → Text
  | .ofNat n => ofNat n
  | .negSucc n => '-' :: ofNat (n + 1)

theorem isPrefixOf?_eq_some {p s r : Text} : p.isPrefixOf? s = some r ↔ s = p ++ r := by
  induction p generalizing s with
  | nil =>
    change some s = some r ↔ _
    simp
  | cons a p ih =>
    cases s with
    | nil =>
      change none = some r ↔ _
      simp
    | cons b s =>
      change (if a == b then p.isPrefixOf? s else none) = some r ↔ _
      by_cases h : a = b
      · subst h
        simp [ih]
      · simp [h, Ne.symm h]

theorem cut?_eq {sep s a b : Text} (h : cut? sep s = some (a, b)) : s = a ++ sep ++ b := by
  induction s generalizing a b with
  | nil =>
    unfold cut? at h
    split at h
    · simp_all
    · simp at h
  | cons c s ih =>
    unfold cut? at h
    split at h
    · next rest hr =>
      rw [isPrefixOf?_eq_some] at hr
      simp_all
    · obtain ⟨⟨x, y⟩, hp, he⟩ := Option.map_eq_some_iff.1 h
      simp only [Prod.mk.injEq] at he
      obtain ⟨rfl, rfl⟩ := he
      simp [ih hp]

theorem dropEnd?_eq_some_iff {tail s t : Text} : dropEnd? tail s = some t ↔ s = t ++ tail := by
  unfold dropEnd?
  constructor
  · intro h
    obtain ⟨front, hfront, rfl⟩ := Option.map_eq_some_iff.1 h
    have hreverse := congrArg List.reverse (isPrefixOf?_eq_some.1 hfront)
    rwa [List.reverse_append, List.reverse_reverse, List.reverse_reverse] at hreverse
  · rintro rfl
    have hfront : tail.reverse.isPrefixOf? (t ++ tail).reverse = some t.reverse :=
      isPrefixOf?_eq_some.2 List.reverse_append
    rw [hfront, Option.map_some, List.reverse_reverse]

theorem length_le_of_mem_consHead {c : Char} {parts : List Text} {n : Nat}
    (h : ∀ part ∈ parts, part.length ≤ n) :
    ∀ part ∈ consHead c parts, part.length ≤ n + 1 := by
  cases parts with
  | nil => simp [consHead]
  | cons head more =>
    intro part hm
    rcases List.mem_cons.1 hm with rfl | hm
    · simpa using h head (List.mem_cons_self ..)
    · have := h part (List.mem_cons_of_mem _ hm)
      omega

theorem flatten_segments (s : Text) : (segments s).flatten = s := by
  induction s with
  | nil => rfl
  | cons c s ih =>
    unfold segments
    split
    · simp [ih]
    · split
      · next h => rw [h] at ih; simp_all
      · next h => rw [h] at ih; simp_all

theorem ne_nil_of_mem_segments {s line : Text} (h : line ∈ segments s) : line ≠ [] := by
  induction s generalizing line with
  | nil => simp [segments] at h
  | cons c s ih =>
    unfold segments at h
    split at h
    · rcases List.mem_cons.1 h with rfl | h
      · simp
      · exact ih h
    · split at h
      · simp_all
      · next hs =>
        rcases List.mem_cons.1 h with rfl | h
        · simp
        · exact ih (by simp [hs, h])

theorem length_dropWhile_le (p : Char → Bool) (s : Text) : (s.dropWhile p).length ≤ s.length :=
  (List.dropWhile_suffix p).length_le

/-! ### Order

Texts are ordered by the code points of their characters, and a text stands before its
continuations.
-/

/-- Put an item in front of the first one that its text does not stand behind. -/
def insertBy (key : α → Text) (a : α) : List α → List α
  | [] => [a]
  | b :: more => if key b < key a then b :: insertBy key a more else a :: b :: more

def sortBy (key : α → Text) (items : List α) : List α := items.foldr (insertBy key) []

def sort (items : List Text) : List Text := sortBy id items

end Text

end TexCatalog
