import TexCatalog.Shell.Arithmetic
import TexCatalog.Shell.Regex

/-!
# Scripts that edit lines

A script is a row of steps. Each step says for which lines it is and what it does with a line. It is
read in one pass; what cannot be read is told with the place where reading has ended.
-/

namespace TexCatalog.Shell

/-- Where a line stands or what it is like. An empty expression stands for the one used last. -/
inductive LineAddress where
  | line (n : Nat)
  | stride (first step : Nat)
  | last
  | like (r : Option Regex)

inductive LineBound where
  | address (a : LineAddress)
  /-- So many lines behind its first one. -/
  | further (n : Nat)
  | multiple (n : Nat)

structure LineSelection where
  first : Option LineAddress := none
  last : Option LineBound := none
  negated : Bool := false

inductive LetterCase where
  | kept
  | upper
  | lower
  deriving DecidableEq

inductive MatchPiece where
  | char (c : Char)
  /-- What a group has matched; the group 0 is all of the match. -/
  | group (n : Nat)
  | onward (k : LetterCase)
  | next (k : LetterCase)

structure Substitution where
  sought : Option Regex
  pieces : List MatchPiece
  nth : Nat := 1
  everywhere : Bool := false
  prints : Bool := false

inductive JumpRule where
  | always
  | substituted
  | notSubstituted

inductive EditAction where
  | openBlock
  | closeBlock
  | label (name : Text)
  /-- Go on behind a label; an empty one is the end of the script. -/
  | jump (rule : JumpRule) (name : Text)
  | substitute (s : Substitution)
  | exchangeChars (pairs : List (Char × Char))
  | append (t : Text)
  | insert (t : Text)
  | change (t : Text)
  | appendFile (path : Text)
  | delete
  | deleteFirst
  | print
  | printFirst
  | next
  | appendNext
  | hold
  | holdMore
  | get
  | getMore
  | exchange
  | number
  | empty
  | quit (printing : Bool) (status : Nat)

structure EditStep where
  number : Nat
  lines : LineSelection
  action : EditAction

namespace EditScript

structure Fault where
  problem : Text
  rest : Text
  isPlaced : Bool := true

def isBlank (c : Char) : Bool := c == ' ' || c == '\t'

def number (s : Text) : Nat × Text :=
  (Arithmetic.natOf 10 (s.takeWhile Char.isDigit), s.dropWhile Char.isDigit)

inductive Nesting where
  | plain
  /-- At the start of a set of characters, where a bracket is one of them. -/
  | setStart
  | set
  | setClass

/-- What stands up to a delimiter, and the rest behind that. In a regular expression a delimiter may
stand in a set of characters. A delimiter behind a backslash stands for itself. -/
def delimited? (d : Char) (inRegex : Bool) : Nesting → Text → Option (Text × Text)
  | _, [] => none
  | .plain, [c] => if c = d then some ([], []) else none
  | .plain, c :: e :: s =>
    if c = d then some ([], e :: s)
    else if c = '\\' then
      let shown : Text :=
        if e = '\n' ∨ (e = d ∧ (inRegex ∨ e ≠ '&')) then [e] else ['\\', e]
      (delimited? d inRegex .plain s).map fun p => (shown ++ p.1, p.2)
    else if c = '\n' then none
    else
      let nesting := if inRegex ∧ c = '[' then Nesting.setStart else .plain
      (delimited? d inRegex nesting (e :: s)).map fun p => (c :: p.1, p.2)
  | nesting, c :: s =>
    let opensClass := c = '[' ∧ s.head?.any (":.=" : Text).contains
    let onward :=
      match nesting with
      | .setStart =>
        if c = '^' then Nesting.setStart else if opensClass then .setClass else .set
      | .setClass => if c = ']' then .set else .setClass
      | _ => if c = ']' then .plain else if opensClass then .setClass else .set
    (delimited? d inRegex onward s).map fun p => (c :: p.1, p.2)

/-- The control character that a letter behind a backslash stands for. -/
def control? (c : Char) : Option Char :=
  if c = 'n' then some '\n'
  else if c = 't' then some '\t'
  else if c = 'r' then some '\r'
  else if c = 'f' then some '\x0c'
  else if c = 'v' then some '\x0b'
  else if c = 'a' then some '\x07'
  else none

def withControls : Text → Text
  | [] => []
  | [c] => [c]
  | '\\' :: c :: s =>
    match control? c with
    | some d => d :: withControls s
    | none => '\\' :: c :: withControls s
  | c :: d :: s => c :: withControls (d :: s)

def regex (extended folded : Bool) (s : Text) : Option Regex :=
  if s = [] then none
  else
    let r := Regex.read extended (withControls s)
    some (if folded then r.fold else r)

/-- What a letter behind a backslash means in what is put for a match. -/
def escapedPiece (c : Char) : MatchPiece :=
  if c.isDigit then .group (c.toNat - '0'.toNat)
  else if c = 'U' then .onward .upper
  else if c = 'L' then .onward .lower
  else if c = 'E' then .onward .kept
  else if c = 'u' then .next .upper
  else if c = 'l' then .next .lower
  else .char ((control? c).getD c)

def pieces : Text → List MatchPiece
  | [] => []
  | '&' :: s => .group 0 :: pieces s
  | '\\' :: c :: s => escapedPiece c :: pieces s
  | c :: s => .char c :: pieces s

def tableChars : Text → Text
  | '\\' :: c :: s => (control? c).getD c :: tableChars s
  | c :: s => c :: tableChars s
  | [] => []

/-- The letter behind an expression that says that cases are the same. -/
def addressFlags : Text → Bool × Text
  | [] => (false, [])
  | c :: s =>
    if c = 'I' then (true, (addressFlags s).2)
    else if c = 'M' ∨ isBlank c then addressFlags s
    else (false, c :: s)

def address (extended : Bool) (s : Text) : Except Fault (Option LineAddress × Text) :=
  let expression (d : Char) (s : Text) : Except Fault (Option LineAddress × Text) :=
    match delimited? d true .plain s with
    | none => .error ⟨"unterminated address regex", [], true⟩
    | some (t, s) =>
      match addressFlags s with
      | (folded, s) => .ok (some (.like (regex extended folded t)), s)
  match s with
  | '$' :: s => .ok (some .last, s)
  | '/' :: s => expression '/' s
  | '\\' :: d :: s => expression d s
  | s =>
    if s.head?.any Char.isDigit then
      match number s with
      | (first, '~' :: s) =>
        match number s with
        | (0, s) => .ok (some (.line first), s)
        | (step, s) => .ok (some (.stride first step), s)
      | (n, s) => .ok (some (.line n), s)
    else .ok (none, s)

def bound (extended : Bool) (s : Text) : Except Fault (LineBound × Text) := do
  match s with
  | '+' :: s => return (.further (number s).1, (number s).2)
  | '~' :: s => return (.multiple (number s).1, (number s).2)
  | s =>
    match ← address extended s with
    | (some a, s) => return (.address a, s)
    | (none, s) => throw ⟨"unexpected `,'", s.tail, true⟩

def negation (s : Text) : Except Fault (Bool × Text) :=
  match s.dropWhile isBlank with
  | '!' :: s =>
    match s.dropWhile isBlank with
    | '!' :: s => .error ⟨"multiple `!'s", s, true⟩
    | s => .ok (true, s)
  | s => .ok (false, s)

/-- Only a range that ends with an expression may start in front of the first line. -/
def isLawful (first : Option LineAddress) (last : Option LineBound) : Bool :=
  match first, last with
  | some (.line 0), some (.address (.like _)) => true
  | some (.line 0), _ => false
  | _, _ => true

def selection (extended : Bool) (s : Text) : Except Fault (LineSelection × Text) := do
  let (first, s) ← address extended s
  let (last, s) ←
    match first, s.dropWhile isBlank with
    | some _, ',' :: s => do
      let (b, s) ← bound extended (s.dropWhile isBlank)
      pure (some b, s)
    | _, s => pure (none, s)
  if !isLawful first last then
    throw ⟨"invalid usage of line address 0", (s.dropWhile isBlank).tail, true⟩
  let (negated, s) ← negation s
  return ({ first, last, negated }, s)

/-- Nothing but the start of another step may stand behind a step. -/
def stepEnd (s : Text) : Except Fault Text :=
  match s.dropWhile isBlank with
  | [] => .ok []
  | c :: s =>
    if c = '\n' ∨ c = ';' then .ok s
    else if c = '}' ∨ c = '#' then .ok (c :: s)
    else .error ⟨"extra characters after command", s, true⟩

/-- The lines of a text up to a break without a backslash in front of it, and the rest. -/
def textLines : Text → Text × Text
  | [] => ([], [])
  | ['\\'] => ([], [])
  | '\\' :: c :: s => (((control? c).getD c :: (textLines s).1), (textLines s).2)
  | c :: s => if c = '\n' then ([], s) else (c :: (textLines s).1, (textLines s).2)

def writtenText (s : Text) : Except Fault (Text × Text) :=
  match s.dropWhile isBlank with
  | [] => .error ⟨"expected \\ after `a', `c' or `i'", [], true⟩
  | ['\\'] => .ok ([], [])
  | '\\' :: '\n' :: s => .ok ((textLines s).1 ++ ['\n'], (textLines s).2)
  | '\\' :: s => .ok ((textLines s).1 ++ ['\n'], (textLines s).2)
  | s => .ok ((textLines s).1 ++ ['\n'], (textLines s).2)

def labelName (s : Text) : Text × Text :=
  let goesOn (c : Char) : Bool := !(isBlank c || c == '\n' || c == ';' || c == '}')
  let s := s.dropWhile isBlank
  (s.takeWhile goesOn, s.dropWhile goesOn)

structure Flags where
  nth : Option Nat := none
  everywhere : Bool := false
  prints : Bool := false
  folded : Bool := false

def flags : Nat → Flags → Text → Except Fault (Flags × Text)
  | 0, f, s => .ok (f, s)
  | _, f, [] => .ok (f, [])
  | fuel + 1, f, c :: s =>
    if c = '\n' ∨ c = ';' then .ok (f, s)
    else if c = '}' ∨ c = '#' then .ok (f, c :: s)
    else if isBlank c then flags fuel f s
    else if c = 'i' ∨ c = 'I' then flags fuel { f with folded := true } s
    else if c = 'g' then
      if f.everywhere then .error ⟨"multiple `g' options to `s' command", s, true⟩
      else flags fuel { f with everywhere := true } s
    else if c = 'p' then
      if f.prints then .error ⟨"multiple `p' options to `s' command", s, true⟩
      else flags fuel { f with prints := true } s
    else if c.isDigit then
      match f.nth, number (c :: s) with
      | some _, _ => .error ⟨"multiple number options to `s' command", s, true⟩
      | none, (0, s) => .error ⟨"number option to `s' command may not be zero", s, true⟩
      | none, (n, s) => flags fuel { f with nth := some n } s
    else .error ⟨"unknown option to `s'", s, true⟩

def delimitedPair? (inRegex : Bool) : Text → Option (Text × Text × Text)
  | [] => none
  | d :: s =>
    match delimited? d inRegex .plain s with
    | none => none
    | some (a, s) => (delimited? d false .plain s).map fun p => (a, p.1, p.2)

def substitution (extended : Bool) (s : Text) : Except Fault (EditAction × Text) :=
  match delimitedPair? true s with
  | none => .error ⟨"unterminated `s' command", [], true⟩
  | some (sought, put, s) => do
    let (f, s) ← flags (s.length + 1) {} s
    return (.substitute
      ⟨regex extended f.folded sought, pieces put, f.nth.getD 1, f.everywhere, f.prints⟩, s)

def exchangeTable (s : Text) : Except Fault (EditAction × Text) :=
  match delimitedPair? false s with
  | none => .error ⟨"unterminated `y' command", [], true⟩
  | some (old, new, s) =>
    if (tableChars old).length ≠ (tableChars new).length then
      .error ⟨"strings for `y' command are different lengths", s, true⟩
    else do
      let rest ← stepEnd s
      return (.exchangeChars ((tableChars old).zip (tableChars new)), rest)

def letterAction? (c : Char) : Option EditAction :=
  [('=', EditAction.number), ('d', .delete), ('D', .deleteFirst), ('g', .get), ('G', .getMore),
    ('h', .hold), ('H', .holdMore), ('n', .next), ('N', .appendNext), ('p', .print),
    ('P', .printFirst), ('x', .exchange), ('z', .empty)].lookup c

def jumpRule? (c : Char) : Option JumpRule :=
  [('b', JumpRule.always), ('t', .substituted), ('T', .notSubstituted)].lookup c

def action (extended : Bool) (c : Char) (s : Text) : Except Fault (EditAction × Text) := do
  if let some a := letterAction? c then
    return (a, ← stepEnd s)
  else if let some rule := jumpRule? c then
    let (name, s) := labelName s
    return (.jump rule name, ← stepEnd s)
  else if c = '\x7b' then return (.openBlock, s)
  else if c = 's' then substitution extended s
  else if c = 'y' then exchangeTable s
  else if c = 'a' ∨ c = 'i' ∨ c = 'c' then
    let (t, s) ← writtenText s
    return (if c = 'a' then .append t else if c = 'i' then .insert t else .change t, s)
  else if c = 'q' ∨ c = 'Q' then
    let (status, s) := number (s.dropWhile isBlank)
    return (.quit (c == 'q') status, ← stepEnd s)
  else if c = 'r' then
    let path := (s.dropWhile isBlank).takeWhile (· ≠ '\n')
    if path = [] then throw ⟨"missing filename in r/R/w/W commands", [], true⟩
    return (.appendFile path, (s.dropWhile (· ≠ '\n')).tail)
  else throw ⟨"unknown command: `" ++ [c, '\''], s, true⟩

def takesRange (c : Char) : Bool := c != 'q' && c != 'Q'

/-- Read a step. `opened` has what was left of the script at every block that is still open. -/
def step (extended : Bool) (opened : List Text) (k : Nat) (s : Text) :
    Except Fault (EditStep × List Text × Text) := do
  let (lines, behind) ← selection extended s
  match behind.dropWhile isBlank with
  | [] => throw ⟨"missing command", [], true⟩
  | c :: rest =>
    if c = '\n' ∨ c = ';' then throw ⟨"missing command", rest, true⟩
    else if c = '#' then throw ⟨"comments don't accept any addresses", rest, true⟩
    else if c = '}' then
      match opened with
      | [] => throw ⟨"unexpected `\x7d'", rest, true⟩
      | _ :: opened =>
        if lines.first.isSome then throw ⟨"\x7d doesn't want any addresses", rest, true⟩
        return (⟨k, lines, .closeBlock⟩, opened, ← stepEnd rest)
    else if c = ':' then
      if lines.first.isSome then throw ⟨": doesn't want any addresses", rest, true⟩
      let (name, rest) := labelName rest
      if name = [] then throw ⟨"\":\" lacks a label", rest, true⟩
      return (⟨k, lines, .label name⟩, opened, rest)
    else if lines.last.isSome ∧ !takesRange c then
      throw ⟨"command only uses one address", rest, true⟩
    else
      let (a, rest) ← action extended c rest
      return (⟨k, lines, a⟩, if c = '\x7b' then rest :: opened else opened, rest)

def steps (extended : Bool) : Nat → List Text → Nat → Text → Except Fault (List EditStep)
  | 0, _, _, _ => .ok []
  | fuel + 1, opened, k, s =>
    match s.dropWhile fun c => isBlank c || c == '\n' || c == ';' with
    | [] =>
      match opened with
      | [] => .ok []
      | rest :: _ => .error ⟨"unmatched `\x7b'", rest, false⟩
    | '#' :: s => steps extended fuel opened k ((s.dropWhile (· ≠ '\n')).tail)
    | s => do
      let (a, opened, rest) ← step extended opened k s
      return a :: (← steps extended fuel opened (k + 1) rest)

/-- The number of the part of a script that reading has come to, and how much of it is read. -/
def place : List Text → Nat → Nat × Nat
  | [], n => (1, n)
  | part :: parts, n =>
    if parts = [] ∨ n ≤ part.length then (1, n)
    else
      match place parts (n - part.length - 1) with
      | (k, n) => (k + 1, n)

def message (parts : List Text) (fault : Fault) : Text :=
  match place parts ((Text.join ['\n'] parts).length - fault.rest.length) with
  | (k, n) =>
    "-e expression #" ++ Text.ofNat k ++ ", char " ++
      Text.ofNat (if fault.isPlaced then n else 0) ++ ": " ++ fault.problem

def missingLabels (script : List EditStep) : List Text :=
  let labels := script.filterMap fun s =>
    match s.action with
    | .label name => some name
    | _ => none
  script.filterMap fun s =>
    match s.action with
    | .jump _ name => if name = [] ∨ labels.contains name then none else some name
    | _ => none

def isSilent (parts : List Text) : Bool := ("#n" : Text).isPrefixOf (Text.join ['\n'] parts)

/-- Read a script in parts, or say why it cannot be read, with the status that tells so. -/
def read (extended : Bool) (parts : List Text) : Except (Text × Nat) (List EditStep) :=
  let s := Text.join ['\n'] parts
  match steps extended (s.length + 1) [] 0 s with
  | .error fault => .error (message parts fault, 1)
  | .ok script =>
    match missingLabels script with
    | [] => .ok script
    | name :: _ => .error ("can't find label for jump to `" ++ name ++ ['\''], 4)

end EditScript

end TexCatalog.Shell
