import TexCatalog.Shell.EditScript

/-!
# Editing lines

A script is run once for every line of the input. The line that is edited can be written, changed,
joined with those behind it and exchanged with one that is held. At the end of a run it is written,
and behind it what was put off until then.
-/

namespace TexCatalog.Shell

structure EditedLine where
  text : Text := []
  isBroken : Bool := true

def EditedLine.add (a b : EditedLine) : EditedLine := ⟨a.text ++ '\n' :: b.text, b.isBroken⟩

structure Editor where
  current : EditedLine := {}
  held : EditedLine := {}
  count : Nat := 0
  toCome : List Text := []
  /-- The ranges of lines that have begun, by the numbers of their steps, each with its last line if
  that was counted from its first one. -/
  ranges : List (Nat × Option Nat) := []
  past : List Nat := []
  /-- What is written behind the current line. -/
  deferred : List Text := []
  substituted : Bool := false
  recent : Option Regex := none
  written : List Text := []
  /-- Has a line been written without its line break? -/
  lacksBreak : Bool := false
  /-- The status with which the script has ended the work, if it has. -/
  ended : Option Nat := none

namespace Editor

def output (e : Editor) : Text := e.written.reverse.flatten

def write (t : Text) (e : Editor) : Editor :=
  { e with
    written := t :: (if e.lacksBreak then ['\n'] :: e.written else e.written)
    lacksBreak := false }

def writeLine (line : EditedLine) (e : Editor) : Editor :=
  if line.isBroken then e.write (line.text ++ ['\n'])
  else { e.write line.text with lacksBreak := true }

def finishLine (e : Editor) : Editor := if e.lacksBreak then e.write [] else e

def withText (t : Text) (e : Editor) : Editor := { e with current := { e.current with text := t } }

def flush (e : Editor) : Editor :=
  { e.deferred.foldl (fun e t => e.write t) e with deferred := [] }

/-- Read the next line, behind `front`. -/
def advance (front line : Text) (more : List Text) (e : Editor) : Editor :=
  let body := Text.dropEnd? ['\n'] line
  { e.flush with
    current := ⟨front ++ body.getD line, body.isSome⟩
    count := e.count + 1
    toCome := more
    substituted := false }

def meant (r : Option Regex) (e : Editor) : Regex := (r.or e.recent).getD .nothing

def isAt (e : Editor) : LineAddress → Bool × Editor
  | .line n => (e.count == n, e)
  | .stride first step => (decide (first ≤ e.count) && (e.count - first) % step == 0, e)
  | .last => (e.toCome.isEmpty, e)
  | .like r => ((e.meant r).isIn false e.current.text, { e with recent := some (e.meant r) })

/-- Does a range begin at the current line? A range that begins at a numbered line begins late if
that line was passed over, but it begins only once. -/
def begins (k : Nat) (a : LineAddress) (b : LineBound) (e : Editor) : Bool × Editor :=
  match a, b with
  | .line n, .address (.line m) => (e.count == n || (decide (n < e.count) && e.count ≤ m), e)
  | .line n, _ => (decide (n ≤ e.count) && !e.past.contains k, e)
  | a, _ => e.isAt a

def leave (k : Nat) (e : Editor) : Editor :=
  { e with ranges := e.ranges.filter (·.1 ≠ k), past := k :: e.past }

/-- Begin a range at the current line; it may be the last one, too. -/
def enter (k : Nat) (b : LineBound) (e : Editor) : Editor :=
  let beginUnless := fun (isOver : Bool) (last : Option Nat) =>
    if isOver then e.leave k else { e with ranges := (k, last) :: e.ranges }
  let upTo := fun n : Nat => beginUnless (decide (n ≤ e.count)) (some n)
  match b with
  | .address (.like _) => beginUnless false none
  | .address (.line n) => beginUnless (decide (n ≤ e.count)) none
  | .address a => beginUnless (e.isAt a).1 none
  | .further n => upTo (e.count + n)
  | .multiple n => upTo ((e.count / n + 1) * n)

def staysIn (k : Nat) (last : Option Nat) (b : LineBound) (e : Editor) : Bool × Editor :=
  match last, b with
  | some n, _ => (true, if n ≤ e.count then e.leave k else e)
  | none, .address (.line n) => (decide (e.count ≤ n), if n ≤ e.count then e.leave k else e)
  | none, .address a =>
    match e.isAt a with
    | (isLast, e) => (true, if isLast then e.leave k else e)
  | none, _ => (true, e.leave k)

def isSelected (s : EditStep) (e : Editor) : Bool × Editor :=
  match s.lines.first, s.lines.last with
  | none, _ => (true, e)
  | some a, none => e.isAt a
  | some a, some b =>
    match e.ranges.lookup s.number with
    | some last => e.staysIn s.number last b
    | none =>
      match e.begins s.number a b with
      | (true, e) => (true, e.enter s.number b)
      | r => r

/-- A text with the case of its letters changed; the first one may have a case of its own. -/
def recased (k first : LetterCase) (t : Text) : Text :=
  let inCase (k : LetterCase) (c : Char) : Char :=
    match k with
    | .kept => c
    | .upper => c.toUpper
    | .lower => c.toLower
  match t with
  | [] => []
  | c :: s => inCase (if first = .kept then k else first) c :: s.map (inCase k)

def filled (m : Regex.Match) : LetterCase → LetterCase → List MatchPiece → Text
  | _, _, [] => []
  | _, _, .onward new :: more => filled m new .kept more
  | k, _, .next first :: more => filled m k first more
  | k, first, .char c :: more => recased k first [c] ++ filled m k .kept more
  | k, first, .group n :: more =>
    let t := if n = 0 then m.whole else (m.captures.lookup n).getD []
    recased k first t ++ filled m k (if t = [] then first else .kept) more

/-- Put something for matches in the rest of a line, if there is a match that something is put for.
`skipped` is the number of matches in front of it, and `justMatched` says that a match ends here. -/
def substituted? (r : Regex) (s : Substitution) (line : Text) :
    Nat → Nat → Bool → Text → Option Text
  | 0, _, _, _ => none
  | fuel + 1, skipped, justMatched, t =>
    match r.find? line t with
    | none => none
    | some m =>
      let behind := fun (skipped : Nat) =>
        match m.whole, m.rest with
        | [], c :: rest => (substituted? r s line fuel skipped false rest).map (c :: ·)
        | [], [] => none
        | _, rest => substituted? r s line fuel skipped true rest
      if justMatched ∧ m.front = [] ∧ m.whole = [] then behind skipped
      else if 0 < skipped then (behind (skipped - 1)).map fun t => m.front ++ m.whole ++ t
      else
        let put := m.front ++ filled m .kept .kept s.pieces
        some (put ++ (if s.everywhere then (behind 0).getD m.rest else m.rest))

def substitute (s : Substitution) (e : Editor) : Editor :=
  let r := e.meant s.sought
  let line := e.current.text
  let e := { e with recent := some r }
  match substituted? r s line (line.length + 2) (s.nth - 1) false line with
  | none => e
  | some t =>
    let e := { e.withText t with substituted := true }
    if s.prints then e.writeLine e.current else e

/-- The first line of the current text, and the rest if there is a line break in it. -/
def firstLine (e : Editor) : Text × Option Text :=
  match Text.cut? ['\n'] e.current.text with
  | some (line, rest) => (line, some rest)
  | none => (e.current.text, none)

/-- The effect of an action that goes on with the next step. `contents` has the texts of files. -/
def act (contents : Text → Text) (a : EditAction) (e : Editor) : Editor :=
  match a with
  | .substitute s => e.substitute s
  | .exchangeChars pairs => e.withText (e.current.text.map fun c => (pairs.lookup c).getD c)
  | .append t => { e with deferred := e.deferred ++ [t] }
  | .appendFile path => { e with deferred := e.deferred ++ [contents path] }
  | .insert t => e.write t
  | .print => e.writeLine e.current
  | .printFirst =>
    match e.firstLine with
    | (line, some _) => e.write (line ++ ['\n'])
    | (_, none) => e.writeLine e.current
  | .hold => { e with held := e.current }
  | .holdMore => { e with held := e.held.add e.current }
  | .get => { e with current := e.held }
  | .getMore => { e with current := e.current.add e.held }
  | .exchange => { e with current := e.held, held := e.current }
  | .number => e.write (Text.ofNat e.count ++ ['\n'])
  | .empty => e.withText []
  | _ => e

/-- Does a step go on at a label? It forgets the substitutions that it has asked for. -/
def jumps (e : Editor) : JumpRule → Bool × Editor
  | .always => (true, e)
  | .substituted => (e.substituted, { e with substituted := false })
  | .notSubstituted => (!e.substituted, { e with substituted := false })

def behindBlock : Nat → List EditStep → List EditStep
  | _, [] => []
  | depth, s :: rest =>
    match s.action, depth with
    | .openBlock, depth => behindBlock (depth + 1) rest
    | .closeBlock, 0 => rest
    | .closeBlock, depth + 1 => behindBlock depth rest
    | _, depth => behindBlock depth rest

def behindLabel (name : Text) : List EditStep → List EditStep
  | [] => []
  | s :: rest =>
    match s.action with
    | .label other => if other = name then rest else behindLabel name rest
    | _ => behindLabel name rest

/-- Run the rest of a script for the current line and then all of it for the lines to come. -/
def run (contents : Text → Text) (silent : Bool) (script : List EditStep) :
    Nat → List EditStep → Editor → Editor
  | 0, _, e => e
  | fuel + 1, rest, e =>
    let shown := fun e : Editor => if silent then e else e.writeLine e.current
    let nextLine := fun e : Editor =>
      match e.toCome with
      | [] => e.flush
      | line :: more => run contents silent script fuel script (e.advance [] line more)
    match rest with
    | [] => nextLine (shown e)
    | s :: rest =>
      match e.isSelected s with
      | (isSelected, e) =>
        if isSelected == s.lines.negated then
          match s.action with
          | .openBlock => run contents silent script fuel (behindBlock 0 rest) e
          | _ => run contents silent script fuel rest e
        else
          match s.action with
          | .jump rule name =>
            match e.jumps rule with
            | (false, e) => run contents silent script fuel rest e
            | (true, e) =>
              let goal := if name = [] then [] else behindLabel name script
              run contents silent script fuel goal e
          | .delete => nextLine e
          | .deleteFirst =>
            match e.firstLine with
            | (_, none) => nextLine e
            | (_, some t) => run contents silent script fuel script (e.flush.withText t)
          | .change t =>
            nextLine (if e.ranges.any (·.1 == s.number) then e else e.write t)
          | .next =>
            match e.toCome with
            | [] => (shown e).flush
            | line :: more => run contents silent script fuel rest ((shown e).advance [] line more)
          | .appendNext =>
            match e.toCome with
            | [] => (shown e).flush
            | line :: more =>
              run contents silent script fuel rest
                (e.advance (e.current.text ++ ['\n']) line more)
          | .quit printing status =>
            let e := if printing then ((shown e).flush).finishLine else e
            { e with ended := some status }
          | a => run contents silent script fuel rest (e.act contents a)

def maxSteps : Nat := 1000000

/-- The ranges that begin in front of the first line. -/
def earlyRanges (script : List EditStep) : List (Nat × Option Nat) :=
  script.filterMap fun s =>
    match s.lines.first with
    | some (.line 0) => some (s.number, none)
    | _ => none

/-- Edit lines, going on with the work of an editor that has come to its end. -/
def edit (contents : Text → Text) (silent : Bool) (script : List EditStep) (e : Editor)
    (lines : List Text) : Editor :=
  let e := { e with held := {}, count := 0, ranges := earlyRanges script, past := [] }
  match lines with
  | [] => e
  | line :: more =>
    if e.ended.isSome then e
    else run contents silent script maxSteps script (e.advance [] line more)

end Editor

end TexCatalog.Shell
