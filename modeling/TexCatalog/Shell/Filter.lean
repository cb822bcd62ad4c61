import TexCatalog.Shell.Pattern
import TexCatalog.Shell.Printf

/-!
# Filters

What programs make of the bytes that they read: parts of them, other bytes for them, their lines in
another order, or how many there are.
-/

namespace TexCatalog.Shell.Filter

structure Counts where
  lines : Nat
  words : Nat
  bytes : Nat

def isSpace (c : Char) : Bool := c == ' ' || ('\t' ≤ c && c ≤ '\r')

def countWords : Bool → Text → Nat
  | _, [] => 0
  | inWord, c :: s =>
    if isSpace c then countWords false s
    else if inWord then countWords true s
    else countWords true s + 1

def count (s : Text) : Counts := ⟨s.count '\n', countWords false s, s.length⟩

def firstLines (n : Nat) (s : Text) : Text := ((Text.segments s).take n).flatten

def dropLastLines (n : Nat) (s : Text) : Text :=
  let lines := Text.segments s
  (lines.take (lines.length - n)).flatten

def lastLines (n : Nat) (s : Text) : Text :=
  let lines := Text.segments s
  (lines.drop (lines.length - n)).flatten

def fromLine (n : Nat) (s : Text) : Text := ((Text.segments s).drop (n - 1)).flatten

/-- A set of bytes as `tr` is given it. -/
def charSet : Nat → Text → Text
  | 0, _ => []
  | _, [] => []
  | fuel + 1, '[' :: ':' :: s =>
    match Text.cut? [':', ']'] s with
    | some (name, rest) =>
      (Pattern.classRanges name).flatMap (fun r => span r.1 r.2) ++ charSet fuel rest
    | none => '[' :: charSet fuel (':' :: s)
  | fuel + 1, c :: s =>
    let (low, rest) := if c = '\\' then escape s else (c, s)
    match rest with
    | '-' :: high :: rest => span low high ++ charSet fuel rest
    | rest => low :: charSet fuel rest
where
  span (low high : Char) : Text :=
    (List.range (high.toNat + 1 - low.toNat)).map fun n => Char.ofNat (low.toNat + n)

/-- The byte that is written for one: the byte at its place in another set, or the last one. -/
def translate (olds news : Text) (c : Char) : Char :=
  match olds.findIdx? (· == c) with
  | none => c
  | some n => (news[n]?.or news.getLast?).getD c

def squeeze (p : Char → Bool) : Option Char → Text → Text
  | _, [] => []
  | before, c :: s =>
    if before = some c ∧ p c then squeeze p before s else c :: squeeze p (some c) s

/-- The bounds of the parts in a list as `cut` is given it. -/
def bounds (list : Text) : List (Nat × Option Nat) :=
  (Text.split ',' list).map fun part =>
    match Text.cut? ['-'] part with
    | none => (Arithmetic.natOf 10 part, some (Arithmetic.natOf 10 part))
    | some (low, high) =>
      (Nat.max 1 (Arithmetic.natOf 10 low),
        if high = [] then none else some (Arithmetic.natOf 10 high))

def select {α : Type} (bs : List (Nat × Option Nat)) (parts : List α) : List α :=
  ((parts.zipIdx 1).filter fun p => bs.any fun b => b.1 ≤ p.2 && b.2.all (p.2 ≤ ·)).map Prod.fst

/-- The parts of a line between separators that are asked for; a line without one is left alone. -/
def cutFields (separator : Char) (bs : List (Nat × Option Nat)) (onlyParted : Bool) (line : Text) :
    Option Text :=
  if line.contains separator then
    some (Text.join [separator] (select bs (Text.split separator line)))
  else if onlyParted then none
  else some line

def group : List Text → List (Text × Nat)
  | [] => []
  | line :: more =>
    match group more with
    | (next, n) :: rest =>
      if line = next then (line, n + 1) :: rest else (line, 1) :: (next, n) :: rest
    | [] => [(line, 1)]

def leadingNumber (line : Text) : Int :=
  let s := line.dropWhile isSpace
  if s.head? = some '-' then -(Arithmetic.natOf 10 (s.tail.takeWhile Char.isDigit) : Int)
  else Arithmetic.natOf 10 (s.takeWhile Char.isDigit)

def sortLines (numeric descending : Bool) (lines : List Text) : List Text :=
  let before := fun a b : Text =>
    if numeric ∧ leadingNumber a ≠ leadingNumber b then leadingNumber a ≤ leadingNumber b
    else !decide (b < a)
  lines.mergeSort fun a b => if descending then before b a else before a b

def unlines (lines : List Text) : Text := lines.flatMap (· ++ ['\n'])

/-- The lines of a text, the last one with or without a break. -/
def lines (s : Text) : List Text :=
  (Text.segments s).map fun line => (Text.dropEnd? ['\n'] line).getD line

end TexCatalog.Shell.Filter
