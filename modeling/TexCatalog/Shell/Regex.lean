import TexCatalog.Shell.Pattern

/-!
# Regular expressions

They are written in the basic or in the extended way, and are looked for in lines. Of the matches
at a place the longest counts, and of matches at several places the first. A match tells what its
groups have matched.
-/

namespace TexCatalog.Shell

/-- A regular expression. -/
inductive Regex where
  | nothing
  | one (c : Char)
  | any
  | among (negated : Bool) (ranges : List (Char × Char))
  | lineStart
  | lineEnd
  | both (a b : Regex)
  | either (a b : Regex)
  /-- Several times, at least `low` and at most `high` times. -/
  | several (low : Nat) (high : Option Nat) (a : Regex)
  | group (n : Nat) (a : Regex)
  | again (n : Nat)
  | wordStart
  | wordEnd
  | wordEdge (isOne : Bool)

namespace Regex

inductive Sign where
  | char (c : Char)
  | any
  | among (negated : Bool) (ranges : List (Char × Char))
  | several (low : Nat) (high : Option Nat)
  | bar
  | opening
  | closing
  | again (n : Nat)
  | wordStart
  | wordEnd
  | wordEdge (isOne : Bool)
  | lineStart
  | lineEnd

/-- The bounds of a repetition between braces, and the rest behind them. -/
def bounds? (extended : Bool) (s : Text) : Option (Nat × Option Nat × Text) :=
  match Text.cut? (if extended then ['\x7d'] else ['\\', '\x7d']) s with
  | none => none
  | some (inner, rest) =>
    let number := fun t : Text => t.foldl (fun n c => n * 10 + (c.toNat - '0'.toNat)) 0
    match Text.cut? [','] inner with
    | none => if inner ≠ [] ∧ inner.all Char.isDigit then
        some (number inner, some (number inner), rest) else none
    | some (low, high) =>
      if low.all Char.isDigit ∧ high.all Char.isDigit then
        some (number low, if high = [] then none else some (number high), rest)
      else none

/-- The meaning of a sign that is special without a backslash in one way to write and with one in
the other, and the rest behind it. -/
def operator? (extended : Bool) (c : Char) (s : Text) : Option (Sign × Text) :=
  if c = '(' then some (.opening, s)
  else if c = ')' then some (.closing, s)
  else if c = '|' then some (.bar, s)
  else if c = '+' then some (.several 1 none, s)
  else if c = '?' then some (.several 0 (some 1), s)
  else if c = '\x7b' then (bounds? extended s).map fun b => (.several b.1 b.2.1, b.2.2)
  else none

def wordRanges : List (Char × Char) := [('0', '9'), ('A', 'Z'), ('_', '_'), ('a', 'z')]

/-- The meaning of a letter or a digit behind a backslash. -/
def shorthand? (c : Char) : Option Sign :=
  if '1' ≤ c ∧ c ≤ '9' then some (.again (c.toNat - '0'.toNat))
  else if c = 'w' then some (.among false wordRanges)
  else if c = 'W' then some (.among true wordRanges)
  else if c = 's' then some (.among false (Pattern.classRanges "space"))
  else if c = 'S' then some (.among true (Pattern.classRanges "space"))
  else if c = '<' then some .wordStart
  else if c = '>' then some .wordEnd
  else if c = 'b' then some (.wordEdge true)
  else if c = 'B' then some (.wordEdge false)
  else if c = '`' then some .lineStart
  else if c = '\'' then some .lineEnd
  else none

/-- The signs of a regular expression. `start` says that a part begins here. -/
def signs (extended : Bool) : Nat → Bool → Text → List Sign
  | 0, _, _ => []
  | _, _, [] => []
  | fuel + 1, start, c :: s =>
    let onward := fun (sign : Sign) (rest : Text) =>
      let begins :=
        match sign with
        | .bar | .opening => true
        | _ => false
      sign :: signs extended fuel begins rest
    if c = '\\' then
      match s with
      | [] => [.char '\\']
      | d :: rest =>
        match if extended then none else operator? extended d rest with
        | some (sign, rest) => onward sign rest
        | none => onward ((shorthand? d).getD (.char d)) rest
    else if c = '.' then onward .any s
    else if c = '[' then
      let negated := s.head? == some '^'
      let glyphs := (if negated then s.tail else s).map fun c => Glyph.mk c false
      match Pattern.ranges (glyphs.length + 1) true glyphs with
      | some (rs, rest) => onward (.among negated rs) (rest.map Glyph.char)
      | none => onward (.char c) s
    else if c = '*' ∧ !start then onward (.several 0 none) s
    else if c = '^' ∧ (start ∨ extended) then .lineStart :: signs extended fuel true s
    else if c = '$' ∧
        (extended ∨ s = [] ∨ ("\\)" : Text).isPrefixOf s ∨ ("\\|" : Text).isPrefixOf s) then
      onward .lineEnd s
    else
      match if extended then operator? extended c s else none with
      | some (sign, rest) => onward sign rest
      | none => onward (.char c) s

mutual

/-- Alternatives up to the end or to a closing sign, the number of the next group, and the rest. -/
def alternatives : Nat → Nat → List Sign → Regex × Nat × List Sign
  | 0, n, ss => (.nothing, n, ss)
  | fuel + 1, n, ss =>
    match row fuel n ss with
    | (a, n, .bar :: rest) =>
      match alternatives fuel n rest with
      | (b, r) => (.either a b, r)
    | r => r

def row : Nat → Nat → List Sign → Regex × Nat × List Sign
  | 0, n, ss => (.nothing, n, ss)
  | fuel + 1, n, ss =>
    match ss with
    | [] => (.nothing, n, [])
    | .bar :: _ => (.nothing, n, ss)
    | .closing :: _ => (.nothing, n, ss)
    | .opening :: rest =>
      match alternatives fuel (n + 1) rest with
      | (a, k, .closing :: rest) => repeated fuel k (.group n a) rest
      | (a, k, rest) => repeated fuel k (.group n a) rest
    | .char c :: rest => repeated fuel n (.one c) rest
    | .any :: rest => repeated fuel n .any rest
    | .among negated rs :: rest => repeated fuel n (.among negated rs) rest
    | .again k :: rest => repeated fuel n (.again k) rest
    | .lineStart :: rest => repeated fuel n .lineStart rest
    | .lineEnd :: rest => repeated fuel n .lineEnd rest
    | .wordStart :: rest => repeated fuel n .wordStart rest
    | .wordEnd :: rest => repeated fuel n .wordEnd rest
    | .wordEdge isOne :: rest => repeated fuel n (.wordEdge isOne) rest
    | .several .. :: rest => row fuel n rest

/-- An expression with the repetitions behind it, and what follows it. -/
def repeated : Nat → Nat → Regex → List Sign → Regex × Nat × List Sign
  | 0, n, a, ss => (a, n, ss)
  | fuel + 1, n, a, ss =>
    match ss with
    | .several low high :: rest => repeated fuel n (.several low high a) rest
    | ss =>
      match row fuel n ss with
      | (b, r) => (.both a b, r)

end

def read (extended : Bool) (s : Text) : Regex :=
  let ss := signs extended (s.length + 1) true s
  (alternatives (4 * ss.length + 4) 1 ss).1

def overlap (a b : Char × Char) : List (Char × Char) :=
  let low := if a.1 < b.1 then b.1 else a.1
  let high := if b.2 < a.2 then b.2 else a.2
  if low ≤ high then [(low, high)] else []

def literal (s : Text) : Regex := s.foldr (fun c r => .both (.one c) r) .nothing

def foldRange (r : Char × Char) : List (Char × Char) :=
  r :: (overlap r ('a', 'z')).map (Prod.map Char.toUpper Char.toUpper) ++
    (overlap r ('A', 'Z')).map (Prod.map Char.toLower Char.toLower)

def fold : Regex → Regex
  | .one c => .among false [(c.toLower, c.toLower), (c.toUpper, c.toUpper)]
  | .among negated rs => .among negated (rs.flatMap foldRange)
  | .both a b => .both (fold a) (fold b)
  | .either a b => .either (fold a) (fold b)
  | .several low high a => .several low high (fold a)
  | .group n a => .group n (fold a)
  | r => r

abbrev Captures := List (Nat × Text)

def isWordChar (c : Char) : Bool := wordRanges.any fun r => r.1 ≤ c && c ≤ r.2

/-- Are there parts of words in front of and behind a place in a line? -/
def besides (line s : Text) : Bool × Bool :=
  ((line.take (line.length - s.length)).getLast?.any isWordChar, s.head?.any isWordChar)

/-- What may be left of the rest of a line behind a match at its start, with the captures. -/
def ends (line : Text) : Nat → Regex → Captures → Text → List (Captures × Text)
  | 0, _, _, _ => []
  | fuel + 1, r, cs, s =>
    let here := fun holds : Bool => if holds then [(cs, s)] else []
    match r with
    | .nothing => [(cs, s)]
    | .one c => if s.head? = some c then [(cs, s.tail)] else []
    | .any => if s = [] then [] else [(cs, s.tail)]
    | .among negated rs =>
      match s with
      | [] => []
      | c :: s => if (rs.any fun r => r.1 ≤ c && c ≤ r.2) != negated then [(cs, s)] else []
    | .lineStart => here (s.length == line.length)
    | .lineEnd => here s.isEmpty
    | .wordStart => here (besides line s == (false, true))
    | .wordEnd => here (besides line s == (true, false))
    | .wordEdge isOne => here (((besides line s).1 != (besides line s).2) == isOne)
    | .both a b => (ends line fuel a cs s).flatMap fun p => ends line fuel b p.1 p.2
    | .either a b => ends line fuel a cs s ++ ends line fuel b cs s
    | .group n a =>
      (ends line fuel a cs s).map fun p => ((n, s.take (s.length - p.2.length)) :: p.1, p.2)
    | .again n => (((cs.lookup n).bind (·.isPrefixOf? s)).map fun rest => (cs, rest)).toList
    | .several low high a =>
      let more :=
        if high = some 0 then []
        else
          ((ends line fuel a cs s).filter fun p => p.2.length < s.length || 0 < low).flatMap
            fun p => ends line fuel (.several (low - 1) (high.map (· - 1)) a) p.1 p.2
      if low = 0 then more ++ [(cs, s)] else more

def size : Regex → Nat
  | .both a b | .either a b => size a + size b + 1
  | .several low _ a => size a + low + 1
  | .group _ a => size a + 1
  | _ => 1

structure Match where
  /-- What stands in front of the match. -/
  front : Text
  whole : Text
  captures : Captures
  rest : Text

/-- The longest match at the start of the rest of a line; of several the first. -/
def matchAt? (r : Regex) (line s : Text) : Option (Captures × Text) :=
  (ends line (r.size + line.length + 2) r [] s).foldl (fun best p =>
    match best with
    | none => some p
    | some b => if p.2.length < b.2.length then some p else some b) none

def find? (r : Regex) (line : Text) : Text → Option Match
  | [] => (r.matchAt? line []).map fun p => ⟨[], [], p.1, []⟩
  | c :: s =>
    match r.matchAt? line (c :: s) with
    | some p => some ⟨[], (c :: s).take (s.length + 1 - p.2.length), p.1, p.2⟩
    | none => (r.find? line s).map fun m => { m with front := c :: m.front }

/-- The matches in the rest of a line one after another, but those of nothing. -/
def matchesIn (r : Regex) (line : Text) : Nat → Text → List Text
  | 0, _ => []
  | fuel + 1, s =>
    match r.find? line s with
    | none => []
    | some m =>
      if m.whole ≠ [] then m.whole :: r.matchesIn line fuel m.rest
      else if m.rest = [] then []
      else r.matchesIn line fuel m.rest.tail

def isIn (r : Regex) (whole : Bool) (line : Text) : Bool :=
  if whole then (ends line (r.size + line.length + 2) r [] line).any fun p => p.2.isEmpty
  else (r.find? line line).isSome

end Regex

end TexCatalog.Shell
