import TexCatalog.Shell.Builtin
import TexCatalog.Shell.Grammar

/-!
# Running scripts

Commands change the state of a script. The words of a command are filled in first, then its channels
are connected, and then it is run by its name. A script that does not come to an end is stopped
after a number of steps.
-/

namespace TexCatalog.Shell

namespace State

/-- What is done when a command has failed that was not run to see whether it does. -/
def checked (tested : Bool) (st : State) : State :=
  if st.stopsOnFailure ∧ !tested ∧ st.status ≠ 0 ∧ st.isRunning then { st with flow := .exit }
  else st

/-- The state behind a loop whose body has been run, and whether the loop goes on. -/
def behindBody (st : State) : State × Bool :=
  match st.flow with
  | .onward => (st, true)
  | .leave 0 | .leave 1 => ({ st with flow := .onward }, false)
  | .leave (n + 1) => ({ st with flow := .leave n }, false)
  | .again 0 | .again 1 => ({ st with flow := .onward }, true)
  | .again (n + 1) => ({ st with flow := .again n }, false)
  | _ => (st, false)

def restoreAll (old : State) (names : List Text) (st : State) : State :=
  names.foldl (fun st name => st.restore name (old.valueIn? name)) st

def titled (title : Text) (f : State → State) (st : State) : State :=
  { f { st with title } with title := st.title }

def traced (st : State) (assignments : List Text) (fields : List Text) (old : State) : State :=
  if st.traces then
    let line := "+ " ++ Text.join [' ']
      (assignments.map (fun name => name ++ '=' :: (st.valueIn? name).getD []) ++ fields) ++ ['\n']
    { (({ st with channels := old.channels } : State).emit 2 line) with channels := st.channels }
  else st

end State

/-- Why a file cannot be opened to read it or, with `creates`, to write it. -/
def openReason (creates : Bool) (fault : FileFault) : Text :=
  match fault with
  | .notFound | .notDirectory => if creates then "Directory nonexistent" else "No such file"
  | fault => fault.reason

/-- What a program's first line says: the path of the program that runs it, and its words. -/
def interpreter? (bytes : Text) : Option (Text × List Text) :=
  let isBlank := fun c : Char => c == ' ' || c == '\t'
  (("#!" : Text).isPrefixOf? bytes).bind fun s =>
    let line := (s.takeWhile (· ≠ '\n')).dropWhile isBlank
    let path := line.takeWhile fun c => !isBlank c
    let word := (((line.drop path.length).dropWhile isBlank).reverse.dropWhile isBlank).reverse
    if path = [] then none else some (path, if word = [] then [] else [word])

def shells : List Text :=
  ["/bin/sh", "/usr/bin/sh", "/bin/dash", "/usr/bin/dash", "/bin/bash", "/usr/bin/bash"]

def systemName? (path : Text) : Option Text :=
  (("/usr/bin/" : Text).isPrefixOf? path).or (("/bin/" : Text).isPrefixOf? path)

def program? (name : Text) : Option Utility :=
  (Utility.all.lookup name).or
    (if [("true" : Text), "false", "echo", "printf"].contains name then
      Builtin.regular.lookup name
    else none)

inductive Program where
  | utility (path : Text) (run : Utility) (words : List Text)
  | shell (name : Text) (words : List Text)

/-- The program at a path that is not one of the system's own: the bytes of a file to be run. -/
def programBytes (s : Store) (path : Text) : Except FileFault Text := do
  let place ← s.locate path
  match s.at? place with
  | some node => if node.isExecutable then return node.bytes?.getD [] else .error .denied
  | none => .error .notFound

def interpreted (path : Text) (bytes : Text) : Except FileFault Program :=
  match interpreter? bytes with
  | none => .error .notProgram
  | some (shell, words) =>
    if shells.contains shell then .ok (.shell shell (words ++ [path]))
    else
      match systemName? shell with
      | some ['e', 'n', 'v'] =>
        match words with
        | [name] =>
          if shells.contains ("/bin/" ++ name) then .ok (.shell name [path])
          else
            match program? name with
            | some run => .ok (.utility name run [path])
            | none =>
              .ok (.utility shell (fun st _ => Utility.fail shell 127
                (Utility.quote name ++ ": " ++ FileFault.notFound.reason) st) [])
        | _ => .error .notFound
      | some name =>
        match program? name with
        | some run => .ok (.utility shell run (words ++ [path]))
        | none => .error .notFound
      | none => .error .notFound

def programAt (s : Store) (path : Text) : Except FileFault Program :=
  match (systemName? path).bind program? with
  | some run => .ok (.utility path run [])
  | none =>
    match programBytes s (Text.ofBytes path) with
    | .error fault => .error fault
    | .ok bytes => interpreted path bytes

mutual

def fillWord : Nat → Word → State → List Piece × State
  | 0, _, st => ([], st)
  | _, [], st => ([], st)
  | fuel + 1, part :: more, st =>
    let (first, st) := fillPart fuel part st
    let (rest, st) := fillWord fuel more st
    (first ++ rest, st)

def fillPart : Nat → Part → State → List Piece × State
  | 0, _, st => ([], st)
  | fuel + 1, part, st =>
    match part with
    | .text quoted t => (if t = [] then [.mark] else Piece.ofText quoted t, st)
    | .parameter quoted name use => fillUse fuel quoted name use st
    | .script quoted line t =>
      let (output, st) := st.capture fun st => runText fuel false line t st
      let output := (output.filter (· ≠ Char.ofNat 0)).reverse.dropWhile (· = '\n') |>.reverse
      (Piece.ofValue quoted output, { st with filledStatus := st.status })
    | .arithmetic quoted parts =>
      let (pieces, st) := fillWord fuel parts st
      let expression := Piece.toText pieces
      match Arithmetic.evaluate (fun name => (st.valueIn? name).getD []) expression with
      | .error fault => ([], st.abort (fault.message expression))
      | .ok (n, changes) =>
        (Piece.ofValue quoted (Text.ofInt n),
          changes.reverse.foldl (fun st (e : Text × Text) => st.assign e.1 e.2) st)

def fillUse : Nat → Bool → Text → Use → State → List Piece × State
  | 0, _, _, _, st => ([], st)
  | fuel + 1, quoted, name, use, st =>
    let isList := name = ['@'] ∨ name = ['*']
    let value? := if isList then
        (if st.arguments = [] then none else some (Text.join [' '] st.arguments))
      else st.parameter? name
    let pieces : List Piece :=
      if name = ['*'] ∧ quoted then
        Piece.ofText true (Text.join (st.separators.take 1) st.arguments)
      else if isList then Piece.ofArguments quoted st.arguments
      else Piece.ofValue quoted (value?.getD [])
    let isSet := fun orEmpty : Bool => value?.any fun t => !orEmpty || t ≠ []
    let replaced := fun (r : List Piece × State) => (r.1.map Piece.toValue, r.2)
    match use with
    | .value =>
      if st.stopsOnUnset ∧ value?.isNone ∧ !isList then
        ([], st.abort (name ++ ": parameter not set"))
      else (pieces, st)
    | .length => (Piece.ofValue quoted (Text.ofNat (value?.getD []).length), st)
    | .default orEmpty parts =>
      if isSet orEmpty then (pieces, st) else replaced (fillWord fuel parts st)
    | .assign orEmpty parts =>
      if isSet orEmpty then (pieces, st)
      else
        let (filled, st) := fillWord fuel parts st
        (Piece.ofValue quoted (Piece.toText filled), st.assign name (Piece.toText filled))
    | .require orEmpty parts =>
      if isSet orEmpty then (pieces, st)
      else
        let (filled, st) := fillWord fuel parts st
        let problem : Text :=
          if parts.isEmpty then
            if orEmpty then "parameter not set or null" else "parameter not set"
          else Piece.toText filled
        ([], st.abort (name ++ ": " ++ problem))
    | .alternative orEmpty parts =>
      if isSet orEmpty then replaced (fillWord fuel parts st) else ([], st)
    | .strip atStart longest parts =>
      let (filled, st) := fillWord fuel parts st
      let pattern := Pattern.read (Piece.glyphs filled)
      let t := value?.getD []
      (Piece.ofValue quoted
        (if atStart then pattern.strip longest t else pattern.stripEnd longest t), st)
    | .bad => ([], st.abort "Bad substitution")

def fillFields : Nat → List Word → State → List Text × State
  | 0, _, st => ([], st)
  | _, [], st => ([], st)
  | fuel + 1, w :: more, st =>
    let (pieces, st) := fillWord fuel w st
    let (rest, new) := fillFields fuel more st
    (st.fieldsOf pieces ++ rest, new)

/-- Connect the channels as redirections say; it is told whether that was possible. -/
def redirect : Nat → List Redirection → State → Bool × State
  | 0, _, st => (false, st)
  | _, [], st => (true, st)
  | fuel + 1, r :: more, st =>
    let onward := fun (opened : Except FileFault (State × Channel)) (st : State)
        (creates : Bool) (path : Text) =>
      match opened with
      | .ok (st, channel) => redirect fuel more (st.connect r.channel channel)
      | .error fault =>
        let action : Text := if creates then "cannot create " else "cannot open "
        (false, st.complain (action ++ path ++ ": " ++ openReason creates fault))
    match r.target with
    | .document w =>
      let (pieces, st) := fillWord fuel w st
      onward (.ok (st.addStream (Piece.toText pieces))) st false []
    | .input w =>
      let (pieces, st) := fillWord fuel w st
      onward (st.openInput (Piece.toText pieces)) st false (Piece.toText pieces)
    | .output append w =>
      let (pieces, st) := fillWord fuel w st
      onward (st.openOutput append (Piece.toText pieces)) st true (Piece.toText pieces)
    | .channel w =>
      let (pieces, st) := fillWord fuel w st
      let name := Piece.toText pieces
      if name = ['-'] then onward (.ok (st, .nowhere)) st false []
      else
        match (st.channels.lookup (Arithmetic.natOf 10 name)) with
        | some channel => onward (.ok (st, channel)) st false []
        | none => (false, st.complain (name ++ ": Bad file descriptor"))

def assignAll : Nat → List (Text × Word) → State → State
  | 0, _, st => st
  | _, [], st => st
  | fuel + 1, (name, w) :: more, st =>
    let (pieces, st) := fillWord fuel w st
    assignAll fuel more (st.assign name (Piece.toText pieces))

/-- Run a command. If it is `tested`, it may fail without ending the script. -/
def runCommand : Nat → Bool → Command → State → State
  | 0, _, _, st => { st with flow := .exit }
  | fuel + 1, tested, c, st =>
    if !st.isRunning then st
    else
      match c with
      | .nothing => st.withStatus 0
      | .simple line assignments words redirections =>
        let st := runSimple fuel tested assignments words redirections
          { st with line, filledStatus := 0 }
        if st.caught = [] then st.checked tested
        else
          let new := runText fuel false 1 st.caught { st with caught := [] }
          if new.isRunning then (new.withStatus st.status).checked tested else new
      | .redirected line body redirections =>
        match redirect fuel redirections { st with line } with
        | (false, new) => ({ new with channels := st.channels, status := 2 } : State).checked tested
        | (true, new) => { runCommand fuel tested body new with channels := st.channels }
      | .subshell body => (st.apart (runCommand fuel tested body)).checked tested
      | .pipe stages => (runStages fuel tested stages st).checked tested
      | .negation body =>
        let st := runCommand fuel true body st
        st.withStatus (if st.status = 0 then 1 else 0)
      | .both a b =>
        let st := runCommand fuel true a st
        if st.status = 0 then runCommand fuel tested b st else st
      | .either a b =>
        let st := runCommand fuel true a st
        if st.status = 0 then st else runCommand fuel tested b st
      | .sequence a b =>
        match b with
        | .nothing => runCommand fuel tested a st
        | b => runCommand fuel tested b (runCommand fuel tested a st)
      | .background body =>
        (st.apart fun st => runCommand fuel tested body (st.connect 0 .nowhere)).withStatus 0
      | .branch condition body otherwise =>
        let st := runCommand fuel true condition st
        if !st.isRunning then st
        else if st.status = 0 then runCommand fuel tested body st
        else runCommand fuel tested otherwise st
      | .loop ends condition body =>
        let new := runLoop fuel tested ends condition body 0 { st with loops := st.loops + 1 }
        { new with loops := st.loops }
      | .forEach line name words body =>
        match words with
        | none =>
          let new := runEach fuel tested name body st.arguments
            { st with status := 0, loops := st.loops + 1 }
          { new with loops := st.loops }
        | some words =>
          let (fields, st) := fillFields fuel words { st with line }
          let new := runEach fuel tested name body fields
            { st with status := 0, loops := st.loops + 1 }
          { new with loops := st.loops }
      | .choose line subject items =>
        let (pieces, st) := fillWord fuel subject { st with line }
        runChoice fuel tested (Piece.toText pieces) items (st.withStatus 0)
      | .define name body =>
        { st with functions := (name, body) :: st.functions, status := 0 }

/-- Run commands each of which has the output of the one before it as its input. -/
def runStages : Nat → Bool → List Command → State → State
  | 0, _, _, st => st
  | _, _, [], st => st
  | fuel + 1, tested, [c], st => st.apart (runCommand fuel tested c)
  | fuel + 1, tested, c :: more, st =>
    let (inner, channel) := st.addStream []
    let left := st.apart fun _ => runCommand fuel tested c (inner.connect 1 channel)
    left.apart fun left => runStages fuel tested more (left.connect 0 channel)

def runLoop : Nat → Bool → Bool → Command → Command → Nat → State → State
  | 0, _, _, _, _, _, st => { st with flow := .exit }
  | fuel + 1, tested, ends, condition, body, status, st =>
    let st := runCommand fuel true condition st
    if !st.isRunning then st.behindBody.1
    else if (st.status == 0) == ends then st.withStatus status
    else
      match (runCommand fuel tested body st).behindBody with
      | (st, true) => runLoop fuel tested ends condition body st.status st
      | (st, false) => st

def runEach : Nat → Bool → Text → Command → List Text → State → State
  | 0, _, _, _, _, st => { st with flow := .exit }
  | _, _, _, _, [], st => st
  | fuel + 1, tested, name, body, field :: more, st =>
    if !st.isRunning then st
    else
      match (runCommand fuel tested body (st.assign name field)).behindBody with
      | (st, true) => runEach fuel tested name body more st
      | (st, false) => st

def runChoice : Nat → Bool → Text → List (List Word × Command) → State → State
  | 0, _, _, _, st => st
  | _, _, _, [], st => st
  | fuel + 1, tested, subject, (patterns, body) :: more, st =>
    match matchesAny fuel subject patterns st with
    | (true, st) => runCommand fuel tested body st
    | (false, st) => runChoice fuel tested subject more st

def matchesAny : Nat → Text → List Word → State → Bool × State
  | 0, _, _, st => (false, st)
  | _, _, [], st => (false, st)
  | fuel + 1, subject, w :: more, st =>
    let (pieces, st) := fillWord fuel w st
    if (Pattern.read (Piece.glyphs pieces)).isMatch subject then (true, st)
    else matchesAny fuel subject more st

def runSimple : Nat → Bool → List (Text × Word) → List Word → List Redirection → State → State
  | 0, _, _, _, _, st => { st with flow := .exit }
  | fuel + 1, tested, assignments, words, redirections, st =>
    let (fields, filled) := fillFields fuel words st
    if !filled.isRunning then filled
    else
      let (connected, new) := redirect fuel redirections filled
      let back := fun new : State => { new with channels := st.channels }
      let names := assignments.map Prod.fst
      if !new.isRunning then back new
      else
        match fields with
        | [] =>
          let new := assignAll fuel assignments new
          if !connected then back (new.withStatus 2)
          else if new.isRunning then back ((new.traced names [] st).withStatus new.filledStatus)
          else back new
        | name :: arguments =>
          let isSpecial := name = ("exec" : Text) ∨ name = ("eval" : Text) ∨ name = ['.'] ∨
            (Builtin.special.lookup name).isSome
          if !connected then
            back (if isSpecial then { new with status := 2, flow := .exit } else new.withStatus 2)
          else
            let assigned := (assignAll fuel assignments new).traced names fields st
            if name = ("exec" : Text) ∧ arguments = [] then assigned.withStatus 0
            else
              let done := back (perform fuel tested name arguments assigned)
              if isSpecial then done else State.restoreAll new names done

def perform : Nat → Bool → Text → List Text → State → State
  | 0, _, _, _, st => { st with flow := .exit }
  | fuel + 1, tested, name, arguments, st =>
    if !st.isRunning then st
    else if name = ("eval" : Text) then
      (st.withStatus 0).titled name (runText fuel tested 1 (Text.join [' '] arguments))
    else if name = ("exec" : Text) then
      let st := st.titled name (runNamed fuel arguments)
      if st.isRunning then { st with flow := .exit } else st
    else if name = ("command" : Text) then runNamed fuel arguments st
    else if name = ['.'] then
      match st.store.readBytes (st.pathOf (arguments.headD [])) with
      | .error fault =>
        st.abort (".: cannot open " ++ arguments.headD [] ++ ": " ++ openReason false fault)
      | .ok text =>
        let st := (st.withStatus 0).titled (arguments.headD []) (runText fuel tested 1 text)
        if st.flow = .return then { st with flow := .onward } else st
    else
      match (Builtin.special.lookup name) with
      | some f => f st arguments
      | none =>
        match st.functions.lookup name with
        | some body =>
          let inside := { st with arguments, loops := 0, hidden := some [] }
          let new := runCommand fuel tested body inside
          let new := (new.hidden.getD []).foldl (fun st e => st.restore e.1 e.2) new
          { new with
            arguments := st.arguments
            loops := st.loops
            hidden := st.hidden
            flow := if new.flow = .return then .onward else new.flow }
        | none => runNamed fuel (name :: arguments) st

def runNamed : Nat → List Text → State → State
  | 0, _, st => { st with flow := .exit }
  | _, [], st => st.withStatus 0
  | fuel + 1, name :: arguments, st =>
    if name = ("-v" : Text) then
      let known := fun t : Text =>
        (Builtin.special.lookup t).isSome || (Builtin.regular.lookup t).isSome ||
          (st.functions.lookup t).isSome
      let target := arguments.headD []
      if known target then (st.emit 1 (target ++ ['\n'])).withStatus 0
      else if (program? target).isSome then
        (st.emit 1 ("/usr/bin/" ++ target ++ ['\n'])).withStatus 0
      else st.withStatus 127
    else
      match (Builtin.special.lookup name).or (Builtin.regular.lookup name) with
      | some f => f st arguments
      | none =>
        if shells.contains ("/bin/" ++ name) ∨ shells.contains name then
          runShell fuel name arguments st
        else if name.contains '/' then
          match programAt st.store (st.pathOf name) with
          | .ok (.utility path f words) => st.callingBy path (f · (words ++ arguments))
          | .ok (.shell shell words) => runShell fuel shell (words ++ arguments) st
          | .error .notProgram =>
            runScript fuel [] name arguments
              ((programBytes st.store (st.pathOf name)).toOption.getD []) st
          | .error fault =>
            match fault with
            | .notFound | .notDirectory => (st.complain (name ++ ": not found")).withStatus 127
            | fault => (st.complain (name ++ ": " ++ fault.reason)).withStatus 126
        else
          match program? name with
          | some f => f st arguments
          | none => (st.complain (name ++ ": not found")).withStatus 127

/-- Run a shell with arguments of its own: options, and the path of a script, or a script itself
behind the option `c`. -/
def runShell : Nat → Text → List Text → State → State
  | 0, _, _, st => { st with flow := .exit }
  | fuel + 1, shell, arguments, st =>
    let isOption := fun a : Text => a.head? == some '-' && 1 < a.length && a != ['-', '-']
    let letters := (arguments.takeWhile isOption).flatMap List.tail
    let operands := arguments.dropWhile isOption
    let operands := if operands.head? = some ['-', '-'] then operands.tail else operands
    match letters.find? fun c => !("aefnuvxcsbhmp" : Text).contains c with
    | some c =>
      (st.emit 2 (shell ++ ": 0: Illegal option -" ++ [c, '\n'])).withStatus 2
    | none =>
      let options := letters.filter fun c => c ≠ 'c' ∧ c ≠ 's'
      match operands with
      | [] =>
        if letters.contains 'c' then
          (st.emit 2 (shell ++ ": 0: -c requires an argument\n")).withStatus 2
        else runScript fuel options shell [] (st.pending 0) (st.setPending 0 [])
      | first :: more =>
        if letters.contains 'c' then
          runScript fuel options (more.headD shell) more.tail first st
        else if letters.contains 's' then
          runScript fuel options shell operands (st.pending 0) (st.setPending 0 [])
        else
          match st.store.readBytes (st.pathOf first) with
          | .ok text => runScript fuel options first more text st
          | .error fault =>
            (st.emit 2 (shell ++ ": 0: cannot open " ++ first ++ ": " ++ openReason false fault ++
              ['\n'])).withStatus 2

def runScript : Nat → Text → Text → List Text → Text → State → State
  | 0, _, _, _, _, st => { st with flow := .exit }
  | fuel + 1, options, name, arguments, text, st =>
    st.apart fun st =>
      let start : State :=
        { store := st.store, directory := st.directory, streams := st.streams
          channels := st.channels, values := st.values, name, arguments }
      let text := text.filter (· ≠ Char.ofNat 0)
      let new := runText fuel false 1 text (Builtin.setLetters true options start)
      match new.flow with
      | .killed _ => new
      | _ =>
        match new.traps.lookup 0 with
        | none => new
        | some action =>
          let last := runText fuel false 1 action { new with flow := .onward, traps := [] }
          if last.flow = .onward then last.withStatus new.status else last

def runText : Nat → Bool → Nat → Text → State → State
  | 0, _, _, _, st => { st with flow := .exit }
  | fuel + 1, tested, line, text, st =>
    runLines fuel tested (tokens (text.length + 1) ⟨text, line, 0⟩) st

def runLines : Nat → Bool → List Lexeme → State → State
  | 0, _, _, st => { st with flow := .exit }
  | fuel + 1, tested, ts, st =>
    if !st.isRunning ∨ atFinish ts then st
    else
      match lineOf (ts.length + 1) (16 * ts.length + 16) ts with
      | .error fault =>
        { st with line := fault.line }.abort ("Syntax error: " ++ fault.problem)
      | .ok (c, rest) =>
        match c with
        | .nothing => runLines fuel tested rest st
        | c => runLines fuel tested rest (runCommand fuel tested c st)

end

end TexCatalog.Shell
