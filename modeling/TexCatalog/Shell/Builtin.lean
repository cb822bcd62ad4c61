import TexCatalog.Shell.Condition
import TexCatalog.Shell.Field
import TexCatalog.Shell.Printf
import TexCatalog.Shell.Utility
import TexCatalog.Shell.Word
import TexCatalog.Signal

/-!
# Commands of the shell itself

Commands that change the state of the script, and a few that would be programs as well.
-/

namespace TexCatalog.Shell.Builtin

def fail (name : Text) (status : Nat) (problem : Text) (st : State) : State :=
  { ({ st with title := name }).complain problem with status, title := st.title }

def abort (name problem : Text) (st : State) : State := ({ st with title := name }).abort problem

def withNumber (name : Text) (default : Nat) (arguments : List Text) (f : Nat → State → State)
    (st : State) : State :=
  match arguments with
  | [] => f default st
  | t :: _ =>
    if t ≠ [] ∧ t.all Char.isDigit then f (Arithmetic.natOf 10 t) st
    else abort name ("Illegal number: " ++ t) st

def test (name : Text) : Utility := fun st arguments =>
  let closed := name ≠ ['['] || arguments.getLast? = some [']']
  if !closed then fail name 2 "missing ]" st
  else
    match Condition.holds st (if name = ['['] then arguments.dropLast else arguments) with
    | .ok true => st.withStatus 0
    | .ok false => st.withStatus 1
    | .error problem => fail name 2 problem st

def print : Utility := fun st arguments =>
  match if arguments.head? = some ['-', '-'] then arguments.tail else arguments with
  | [] => fail "printf" 2 "usage: printf format [arg ...]" st
  | pattern :: more =>
    let p := printf (more.length + 1) pattern { arguments := more }
    let st := st.emit 1 p.output
    (p.complaints.foldl (fun st t => fail "printf" 1 t st) st).withStatus
      (if p.broken then 2 else if p.complaints = [] then 0 else 1)

/-- A line without the backslashes in it and what stands behind it; a backslash at its end joins the
next line. Also whether the line has an end. -/
def logicalLine : Text → List Piece × Text × Bool
  | [] => ([], [], false)
  | '\n' :: s => ([], s, true)
  | '\\' :: '\n' :: s => logicalLine s
  | '\\' :: c :: s =>
    let (line, rest, ended) := logicalLine s
    (.char c true false :: line, rest, ended)
  | c :: s =>
    let (line, rest, ended) := logicalLine s
    (.char c false true :: line, rest, ended)

/-- Give the fields of a line to variables, the last of which gets all that is left. -/
def assignFields (separators : Text) : List Text → List Piece → State → State
  | [], _, st => st
  | [name], line, st =>
    let isBlank := fun
      | Piece.char c quoted _ => !quoted && Piece.isSpace c && separators.contains c
      | _ => false
    st.assign name (Piece.toText ((line.dropWhile isBlank).reverse.dropWhile isBlank).reverse)
  | name :: more, line, st =>
    let isBlank := fun
      | Piece.char c quoted _ => !quoted && Piece.isSpace c && separators.contains c
      | _ => false
    let isInner := fun
      | Piece.char c quoted _ => quoted || !separators.contains c
      | _ => true
    let line := line.dropWhile isBlank
    let rest := (line.dropWhile isInner).dropWhile isBlank
    let rest :=
      match line.dropWhile isInner, rest with
      | .char c _ _ :: after, _ => if Piece.isSpace c then rest else after
      | _, rest => rest
    assignFields separators more rest (st.assign name (Piece.toText (line.takeWhile isInner)))

def read : Utility := fun st arguments =>
  let raw := arguments.head? = some ("-r" : Text)
  let names := if raw then arguments.tail else arguments
  match names.find? fun name => !isName name with
  | some name => fail "read" 2 (name ++ ": bad variable name") st
  | none =>
    if names = [] then fail "read" 2 "arg count" st
    else
      let pending := st.pending 0
      let (line, rest, ended) :=
        if raw then
          (Piece.ofValue false (pending.takeWhile (· ≠ '\n')),
            (pending.dropWhile (· ≠ '\n')).tail, pending.contains '\n')
        else logicalLine pending
      (assignFields st.separators names line (st.setPending 0 rest)).withStatus
        (if ended then 0 else 1)

def signal? (t : Text) : Option Nat :=
  if t ≠ [] ∧ t.all Char.isDigit then
    some (Arithmetic.natOf 10 t) |>.filter (· ≤ 64)
  else Signal.number? (t.map Char.toUpper)

/-- Send a signal to the script, which is the only one that there is. -/
def send (signal : Nat) (targets : List Text) (st : State) : State :=
  match targets.find? fun t => t.isEmpty || !t.all Char.isDigit with
  | some t => fail "kill" 2 ("Illegal number: " ++ t) st
  | none =>
    if targets.any fun t => t ≠ State.ownNumber ∧ t ≠ ['0'] then fail "kill" 1 "No such process" st
    else
      match st.traps.lookup signal with
      | some action =>
        if signal = 9 then { st with flow := .killed signal }
        else { st with caught := st.caught ++ action ++ ['\n'], status := 0 }
      | none =>
        if signal = 0 ∨ Signal.isHarmless signal then st.withStatus 0
        else { st with flow := .killed signal }

def kill : Utility := fun st arguments =>
  match arguments with
  | ['-', 's'] :: name :: targets =>
    match signal? name with
    | some n => send n targets st
    | none => fail "kill" 2 ("invalid signal number or name: " ++ name) st
  | ['-', '-'] :: targets => send 15 targets st
  | ('-' :: name) :: targets =>
    match signal? name with
    | some n => send n targets st
    | none => fail "kill" 2 ("Illegal option -" ++ name.take 1) st
  | [] =>
    fail "kill" 2 ("Usage: kill [-s sigspec | -signum | -sigspec] [pid | job]... or\n" ++
      ("kill -l [exitstatus]" : Text)) st
  | targets => send 15 targets st

def cd : Utility := fun st arguments =>
  let path := arguments.headD []
  if arguments = [] ∨ st.store.isDirectory (st.pathOf path) then
    { st with directory := if arguments = [] then st.directory else st.pathOf path, status := 0 }
  else fail "cd" 2 ("can't cd to " ++ path) st

/-- The name in an argument, and the value behind an equals sign. -/
def declaration (a : Text) : Text × Option Text :=
  match Text.cut? ['='] a with
  | some (name, value) => (name, some value)
  | none => (a, none)

def declare (command : Text) : Utility := fun st arguments =>
  let arguments := arguments.filter fun a => a.head? ≠ some '-'
  match arguments.find? fun a => !isName (declaration a).1 with
  | some a => abort command ((declaration a).1 ++ ": bad variable name") st
  | none =>
    (arguments.foldl (fun st a =>
      match declaration a with
      | (name, some value) => st.assign name value
      | (_, none) => st) st).withStatus 0

def declareHidden : Utility := fun st arguments =>
  match st.hidden with
  | none => abort "local" "not in a function" st
  | some hidden =>
    let names := arguments.map fun a => (declaration a).1
    declare "local" { st with hidden := some (names.map (fun n => (n, st.valueIn? n)) ++ hidden) }
      arguments

def setLetters (on : Bool) (letters : Text) (st : State) : State :=
  letters.foldl (fun st c =>
    if c = 'e' then { st with stopsOnFailure := on }
    else if c = 'u' then { st with stopsOnUnset := on }
    else if c = 'x' then { st with traces := on }
    else if ("afnvbmhpCIVE" : Text).contains c then st
    else abort "set" ("Illegal option -" ++ [c]) st) st

def set : Nat → List Text → State → State
  | 0, _, st => st
  | fuel + 1, arguments, st =>
    match arguments with
    | [] => st
    | ['-', '-'] :: more => { st with arguments := more }
    | ['-', 'o'] :: name :: more => set fuel more (setNamed true name st)
    | ['+', 'o'] :: name :: more => set fuel more (setNamed false name st)
    | ('-' :: c :: letters) :: more => set fuel more (setLetters true (c :: letters) st)
    | ('+' :: c :: letters) :: more => set fuel more (setLetters false (c :: letters) st)
    | more => { st with arguments := more }
where
  setNamed (on : Bool) (name : Text) (st : State) : State :=
    if name = ("errexit" : Text) then setLetters on ['e'] st
    else if name = ("nounset" : Text) then setLetters on ['u'] st
    else if name = ("xtrace" : Text) then setLetters on ['x'] st
    else if [("noglob" : Text), "allexport", "noexec", "verbose", "notify", "monitor"].contains name
    then st
    else abort "set" ("Illegal option -o " ++ name) st

def shift : Utility := fun st arguments =>
  withNumber "shift" 1 arguments (fun n st =>
    if st.arguments.length < n then abort "shift" "can't shift that many" st
    else { st with arguments := st.arguments.drop n, status := 0 }) st

def unset : Utility := fun st arguments =>
  let names := arguments.filter fun a => a.head? ≠ some '-'
  if arguments.head? = some ['-', 'f'] then
    { st with functions := st.functions.filter fun e => !names.contains e.1, status := 0 }
  else
    match names.find? fun name => !isName name with
    | some name => abort "unset" (name ++ ": bad variable name") st
    | none => (names.foldl (fun st name => st.restore name none) st).withStatus 0

def leaveWith (name : Text) (flow : Flow) : Utility := fun st arguments =>
  withNumber name st.status arguments (fun n st => { st with status := n % 256, flow }) st

def leaveLoops (name : Text) (flow : Nat → Flow) : Utility := fun st arguments =>
  withNumber name 1 arguments (fun n st =>
    { st with status := 0, flow := if st.loops = 0 then .onward else flow n }) st

/-- Remember what is to be done when signals come or at the end of the script. -/
def trap : Utility := fun st arguments =>
  match arguments with
  | action :: signals =>
    signals.foldl (fun st name =>
      match if name = ("EXIT" : Text) then some 0 else signal? name with
      | none =>
        (st.complainAs "trap" (name ++ ": bad trap")).withStatus 1
      | some n =>
        let others := st.traps.filter (·.1 ≠ n)
        { st with traps := if action = ['-'] then others else (n, action) :: others })
      (st.withStatus 0)
  | [] => st.withStatus 0

def special : List (Text × Utility) :=
  [(":", fun st _ => st.withStatus 0), ("exit", leaveWith "exit" .exit),
    ("return", leaveWith "return" .return), ("break", leaveLoops "break" .leave),
    ("continue", leaveLoops "continue" .again), ("export", declare "export"),
    ("readonly", declare "readonly"),
    ("set", fun st arguments => set (arguments.length + 1) arguments (st.withStatus 0)),
    ("shift", shift), ("unset", unset), ("trap", trap)]

def regular : List (Text × Utility) :=
  [("true", fun st _ => st.withStatus 0), ("false", fun st _ => st.withStatus 1),
    ("echo", fun st arguments => (st.emit 1 (echo arguments)).withStatus 0), ("printf", print),
    ("test", test "test"), ("[", test "["), ("read", read), ("kill", kill), ("cd", cd),
    ("local", declareHidden), ("wait", fun st _ => st.withStatus 0),
    ("umask", fun st _ => st.withStatus 0)]

end TexCatalog.Shell.Builtin
