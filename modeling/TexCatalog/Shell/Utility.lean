import TexCatalog.Shell.Condition
import TexCatalog.Shell.Editor
import TexCatalog.Shell.Filter
import TexCatalog.Shell.Options
import TexCatalog.Shell.Regex
import TexCatalog.Shell.State

/-!
# Programs for scripts

The programs that scripts find on the system. They read the input and files, write to the output and
to files, and have a status, which is zero when all went well.
-/

namespace TexCatalog.Shell

abbrev Utility := State → List Text → State

namespace Utility

def quote (t : Text) : Text := '\'' :: t ++ ['\'']

def fail (program : Text) (status : Nat) (problem : Text) (st : State) : State :=
  (st.complainAs (st.calledBy.getD program) problem).withStatus status

/-- What a program says of arguments that it does not know, between its complaint and the end. -/
def usage (program : Text) : Text :=
  if program = ("grep" : Text) then "Usage: grep [OPTION]... PATTERNS [FILE]...\n" else []

def misusedWith (program : Text) (status : Nat) (problem : Text) (st : State) : State :=
  let name := st.calledBy.getD program
  let advice := "Try '" ++ (if usage program = [] then name else program) ++
    " --help' for more information."
  fail program status (problem ++ '\n' :: usage program ++ advice) st

def misused (program problem : Text) : State → State := misusedWith program 1 problem

def withOperands (program : Text) (o : Options) (f : State → State) (st : State) : State :=
  if o.operands = [] then misused program "missing operand" st else f st

def withOptions (program plain valued : Text) (status : Nat)
    (f : Options → State → State) : Utility := fun st arguments =>
  match Options.read plain valued (arguments.length + 1) arguments with
  | .error problem => misusedWith program status problem st
  | .ok o => f o (st.withStatus 0)

/-- Do something with the text of every operand, or with the input if there is none. -/
def forInputs (unreadable : Text → FileFault → State → State) (f : Text → Text → State → State)
    (operands : List Text) (st : State) : State :=
  (if operands = [] then [['-']] else operands).foldl (fun st path =>
    if path = ['-'] then f path (st.pending 0) (st.setPending 0 [])
    else
      match st.readAll path with
      | .error fault => unreadable path fault st
      | .ok (t, st) => f path t st) st

def unreadable (program path : Text) (fault : FileFault) : State → State :=
  fail program 1 (path ++ ": " ++ fault.reason)

def filter (program : Text) (f : Text → Text) (operands : List Text) : State → State :=
  forInputs (unreadable program) (fun _ t st => st.emit 1 (f t)) operands

def numbered (t : Text) : Text :=
  ((Text.segments t).zipIdx 1).flatMap fun line =>
    (Directive.mk [] 6 none 'd').ofInt line.2 ++ '\t' :: line.1

def cat : Utility :=
  withOptions "cat" "nu" [] 1 fun o =>
    filter "cat" (if o.has 'n' then numbered else id) o.operands

/-- The number of an option, and whether a sign stands in front of it. -/
def amount (t : Text) : Option Char × Nat :=
  match t with
  | '-' :: s => (some '-', Arithmetic.natOf 10 s)
  | '+' :: s => (some '+', Arithmetic.natOf 10 s)
  | s => (none, Arithmetic.natOf 10 s)

/-- The arguments of a program for which a number of lines may stand behind a dash. -/
def withoutShortAmount : List Text → List Text
  | ('-' :: c :: s) :: more =>
    if (c :: s).all Char.isDigit then "-n" :: (c :: s) :: more else ('-' :: c :: s) :: more
  | arguments => arguments

/-- What `head` and `tail` say of a file that they cannot read. -/
def unopened (program path : Text) (fault : FileFault) : State → State :=
  if fault = .isDirectory then
    fail program 1 ("error reading " ++ quote path ++ ": " ++ fault.reason)
  else fail program 1 ("cannot open " ++ quote path ++ " for reading: " ++ fault.reason)

def part (program : Text) (f : Text → Text) (o : Options) : State → State :=
  let titled := (1 < o.operands.length || o.has 'v') && !o.has 'q'
  let first := o.operands.head?
  forInputs (unopened program) (fun path t st =>
    if titled then
      let gap : Text := if some path = first then [] else ['\n']
      st.emit 1 (gap ++ "==> " ++ path ++ " <==\n" ++ f t)
    else st.emit 1 (f t)) o.operands

def head : Utility := fun st arguments =>
  withOptions "head" "qv" "nc" 1 (fun o =>
    part "head" (fun t =>
      match o.value? 'c' with
      | some n =>
        match amount n with
        | (some '-', n) => t.take (t.length - n)
        | (_, n) => t.take n
      | none =>
        match (o.value? 'n').map amount with
        | some (some '-', n) => Filter.dropLastLines n t
        | some (_, n) => Filter.firstLines n t
        | none => Filter.firstLines 10 t) o) st (withoutShortAmount arguments)

def tail : Utility := fun st arguments =>
  withOptions "tail" "qv" "nc" 1 (fun o =>
    part "tail" (fun t =>
      match o.value? 'c' with
      | some n =>
        match amount n with
        | (some '+', n) => t.drop (n - 1)
        | (_, n) => t.drop (t.length - n)
      | none =>
        match (o.value? 'n').map amount with
        | some (some '+', n) => Filter.fromLine n t
        | some (_, n) => Filter.lastLines n t
        | none => Filter.lastLines 10 t) o) st (withoutShortAmount arguments)

/-- Numbers in a row, each at least so wide, and a name behind them. -/
def countLine (o : Options) (width : Nat) (c : Filter.Counts) (name : Text) : Text :=
  let all := !(o.has 'l' || o.has 'w' || o.has 'c' || o.has 'm')
  let number := fun n : Nat => (Directive.mk [] width none 'd').ofInt n
  let columns :=
    (if all || o.has 'l' then [number c.lines] else []) ++
      (if all || o.has 'w' then [number c.words] else []) ++
        (if o.has 'm' then [number c.bytes] else []) ++
          if all || o.has 'c' then [number c.bytes] else []
  Text.join [' '] columns ++ (if name = [] then [] else ' ' :: name) ++ ['\n']

def wc : Utility :=
  withOptions "wc" "lwcm" [] 1 fun o st =>
    let few := o.letters.length = 1 && o.operands.length ≤ 1
    let sizes := o.operands.map fun path =>
      ((st.readAll path).toOption.map fun r => r.1.length).getD 0
    let width :=
      if few then 1
      else if o.operands = [] then
        match st.channel 0 with
        | .stream _ => 7
        | _ => (Text.ofNat (st.pending 0).length).length
      else (Text.ofNat (sizes.foldl (· + ·) 0)).length
    let counted := fun (path t : Text) (r : State × Filter.Counts) =>
      let c := Filter.count t
      let name := if o.operands = [] then [] else path
      (r.1.emit 1 (countLine o width c name),
        Filter.Counts.mk (r.2.lines + c.lines) (r.2.words + c.words) (r.2.bytes + c.bytes))
    let (st, total) :=
      (if o.operands = [] then [['-']] else o.operands).foldl (fun r path =>
        if path = ['-'] then counted path (r.1.pending 0) (r.1.setPending 0 [], r.2)
        else
          match r.1.readAll path with
          | .error fault => (unreadable "wc" path fault r.1, r.2)
          | .ok (t, st) => counted path t (st, r.2)) (st, Filter.Counts.mk 0 0 0)
    if 1 < o.operands.length then st.emit 1 (countLine o width total "total") else st

def tr : Utility :=
  withOptions "tr" "cCds" [] 1 fun o st =>
    let set := fun t : Text => Filter.charSet t.length t
    let first := set (o.operands.headD [])
    let second := set (o.operands[1]?.getD [])
    let isIn := fun c : Char => first.contains c != (o.has 'c' || o.has 'C')
    let t := st.pending 0
    let st := st.setPending 0 []
    if o.operands = [] then misused "tr" "missing operand" st
    else if o.operands.length = 1 ∧ !o.has 'd' ∧ !o.has 's' then
      misused "tr" ("missing operand after " ++ quote (o.operands.headD []) ++
        "\nTwo strings must be given when translating.") st
    else if o.has 'd' then
      let t := t.filter fun c => !isIn c
      st.emit 1 (if o.has 's' then Filter.squeeze second.contains none t else t)
    else
      let t :=
        if o.operands.length < 2 then t
        else if o.has 'c' ∨ o.has 'C' then
          t.map fun c => if isIn c then second.getLastD c else c
        else t.map (Filter.translate first second)
      let p := if o.operands.length < 2 then isIn else second.contains
      st.emit 1 (if o.has 's' then Filter.squeeze p none t else t)

def cut : Utility :=
  withOptions "cut" "s" "dfcb" 1 fun o =>
    let separator := ((o.value? 'd').bind List.head?).getD '\t'
    let line := fun line : Text =>
      match o.value? 'f' with
      | some list => Filter.cutFields separator (Filter.bounds list) (o.has 's') line
      | none =>
        let list := ((o.value? 'c').or (o.value? 'b')).getD []
        some (Filter.select (Filter.bounds list) line)
    filter "cut" (fun t => Filter.unlines ((Filter.lines t).filterMap line)) o.operands

/-- Everything that the operands hold, with a break behind every line. -/
def gather (program : Text) (operands : List Text) (f : List Text → State → State) (st : State) :
    State :=
  let (st, channel) := st.addStream []
  let n := st.streams.length - 1
  let st := forInputs (unreadable program)
    (fun _ t st => st.setStream n (st.stream n ++ Filter.unlines (Filter.lines t))) operands st
  match channel with
  | .stream n => f (Filter.lines (st.stream n)) (st.setStream n [])
  | _ => st

def sort : Utility :=
  withOptions "sort" "nru" [] 2 fun o =>
    gather "sort" o.operands fun lines st =>
      let lines := Filter.sortLines (o.has 'n') (o.has 'r') lines
      st.emit 1 (Filter.unlines (if o.has 'u' then (Filter.group lines).map Prod.fst else lines))

def uniq : Utility :=
  withOptions "uniq" "cdu" [] 1 fun o =>
    gather "uniq" o.operands fun lines st =>
      let groups := (Filter.group lines).filter fun g =>
        (!o.has 'd' || 1 < g.2) && (!o.has 'u' || g.2 == 1)
      st.emit 1 (Filter.unlines (groups.map fun g =>
        if o.has 'c' then (Directive.mk [] 7 none 'd').ofInt g.2 ++ ' ' :: g.1 else g.1))

def tee : Utility :=
  withOptions "tee" "ai" [] 1 fun o st =>
    let t := st.pending 0
    let st := (st.setPending 0 []).emit 1 t
    o.operands.foldl (fun st path =>
      match st.openOutput (o.has 'a') path with
      | .error fault => unreadable "tee" path fault st
      | .ok (new, channel) => { (new.connect 9 channel).emit 9 t with channels := st.channels }) st

/-- What is looked for in lines: one of the patterns that are given in lines of their own. -/
def soughtBy (o : Options) (pattern : Text) : Regex :=
  let read := fun t : Text => if o.has 'F' then Regex.literal t else Regex.read (o.has 'E') t
  let r :=
    match (Text.split '\n' pattern).map read with
    | [] => .nothing
    | r :: more => more.foldl .either r
  let r := if o.has 'i' then r.fold else r
  if o.has 'w' then .both (.wordEdge true) (.both r (.wordEdge true)) else r

/-- What `grep` writes for a file, with the numbers of the lines that it finds. -/
def foundLines (o : Options) (r : Regex) (name : Text) (found : List (Text × Nat)) : Text :=
  if o.has 'q' then []
  else if o.has 'l' then if found = [] then [] else name ++ ['\n']
  else
    let front : Text := if 1 < o.operands.length ∧ !o.has 'h' then name ++ [':'] else []
    if o.has 'c' then front ++ Text.ofNat found.length ++ ['\n']
    else
      let shown := fun line : Text =>
        if !o.has 'o' then [line]
        else if o.has 'v' then []
        else r.matchesIn line (line.length + 1) line
      Filter.unlines (found.flatMap fun line => (shown line.1).map fun t =>
        front ++ (if o.has 'n' then Text.ofNat line.2 ++ ':' :: t else t))

def grep : Utility :=
  withOptions "grep" "qcvinlhxswoEF" "e" 2 fun o st =>
    match (o.value? 'e').or o.operands.head? with
    | none =>
      (st.emit 2 (usage "grep" ++
        ("Try 'grep --help' for more information.\n" : Text))).withStatus 2
    | some pattern =>
      let o := if (o.value? 'e').isSome then o else { o with operands := o.operands.tail }
      let r := soughtBy o pattern
      let st := forInputs
        (fun path fault st => if o.has 's' then st.withStatus 2 else
          fail "grep" 2 (path ++ ": " ++ fault.reason) st)
        (fun path t st =>
          let found := ((Filter.lines t).zipIdx 1).filter fun line =>
            r.isIn (o.has 'x') line.1 != o.has 'v'
          let name : Text := if path = ['-'] then "(standard input)" else path
          (st.emit 1 (foundLines o r name found)).withStatus
            (if found ≠ [] ∧ st.status = 1 then 0 else st.status)) o.operands (st.withStatus 1)
      st

/-- The parts of the script that `sed` is given, and the paths of its inputs. -/
def editedInputs (o : Options) (contents : Text → Text) : List Text × List Text :=
  let parts := o.letters.filterMap fun l =>
    if l.1 = 'e' then some l.2
    else if l.1 = 'f' then some ((Text.dropEnd? ['\n'] (contents l.2)).getD (contents l.2))
    else none
  if parts = [] then (o.operands.take 1, o.operands.tail) else (parts, o.operands)

def readInputs : List Text → State → State × List Text
  | [], st => (st, [])
  | path :: more, st =>
    if path = ['-'] then
      match readInputs more (st.setPending 0 []) with
      | (new, texts) => (new, st.pending 0 :: texts)
    else
      match st.readAll path with
      | .error .isDirectory =>
        (fail "sed" 4 ("read error on " ++ path ++ ": " ++ FileFault.isDirectory.reason) st, [])
      | .error fault =>
        readInputs more (fail "sed" 2 ("can't read " ++ path ++ ": " ++ fault.reason) st)
      | .ok (t, st) =>
        match readInputs more st with
        | (st, texts) => (st, t :: texts)

def editFiles (f : Editor → List Text → Editor) : Editor → List Text → State → State
  | e, [], st => st.withStatus (e.ended.getD st.status)
  | e, path :: more, st =>
    if let some status := e.ended then st.withStatus status
    else
      match st.readAll path with
      | .error .isDirectory =>
        fail "sed" 4 ("couldn't edit " ++ path ++ ": not a regular file") st
      | .error fault =>
        editFiles f e more (fail "sed" 2 ("can't read " ++ path ++ ": " ++ fault.reason) st)
      | .ok (t, st) =>
        let e := f { e with written := [], lacksBreak := false } (Text.segments t)
        match st.store.writeBytes (st.pathOf path) e.output with
        | .ok store => editFiles f e more { st with store }
        | .error _ => editFiles f e more st

def sed : Utility :=
  withOptions "sed" "nErsui" "ef" 1 fun o st =>
    let contents := fun path => ((st.readAll path).toOption.map Prod.fst).getD []
    let (parts, paths) := editedInputs o contents
    match EditScript.read (o.has 'E' || o.has 'r') parts with
    | .error (problem, status) => fail "sed" status problem st
    | .ok script =>
      let edit := Editor.edit contents (o.has 'n' || EditScript.isSilent parts) script
      if parts = [] then misused "sed" "no script" st
      else if o.has 'i' then
        if paths = [] then fail "sed" 4 "no input files" st else editFiles edit {} paths st
      else
        let (st, texts) := readInputs (if paths = [] then [['-']] else paths) st
        let texts := texts.map Text.segments
        let e := (if o.has 's' then texts else [texts.flatten]).foldl edit {}
        (st.emit 1 e.output).withStatus (e.ended.getD st.status)

def numbers (first step last : Int) : List Int :=
  let count := if step = 0 then 0 else (Int.fdiv (last - first) step + 1).toNat
  (List.range count).map fun (k : Nat) => first + step * k

def seq : Utility := fun st arguments =>
  match arguments.find? fun a => ("--" : Text).isPrefixOf a, arguments.map Filter.leadingNumber with
  | some a, _ => misused "seq" ("unrecognized option " ++ quote a) st
  | none, [] => misused "seq" "missing operand" st
  | none, n =>
    let shown :=
      match n with
      | [last] => numbers 1 1 last
      | [first, last] => numbers first 1 last
      | _ => numbers (n.headD 1) (n[1]?.getD 1) (n[2]?.getD 1)
    (st.withStatus 0).emit 1 (shown.flatMap fun n => Text.ofInt n ++ ['\n'])

/-- A path without slashes at its end, and the name at its end. -/
def baseName (path : Text) : Text :=
  match (Path.steps path).getLast? with
  | some name => name
  | none => if path = [] then [] else ['/']

def basename : Utility :=
  withOptions "basename" [] [] 1 fun o => withOperands "basename" o fun st =>
    let name := baseName (o.operands.headD [])
    let cut := o.operands[1]?.bind fun tail => (Text.dropEnd? tail name).filter (· ≠ [])
    let stem := cut.getD name
    st.emit 1 (stem ++ ['\n'])

def dirname : Utility :=
  withOptions "dirname" [] [] 1 fun o => withOperands "dirname" o fun st =>
    let path := o.operands.headD []
    let front := (path.reverse.dropWhile (· = '/')).dropWhile (· ≠ '/') |>.dropWhile (· = '/')
    let directory : Text :=
      if front ≠ [] then front.reverse else if path.head? = some '/' then ['/'] else ['.']
    st.emit 1 (directory ++ ['\n'])

def forPaths (program action : Text) (operands : List Text)
    (f : Text → Store → Except FileFault Store) (st : State) : State :=
  operands.foldl (fun st path =>
    match f (st.pathOf path) st.store with
    | .ok store => { st with store }
    | .error fault => fail program 1 (action ++ quote path ++ ": " ++ fault.reason) st) st

def rm : Utility :=
  withOptions "rm" "rRfv" [] 1 fun o st =>
    if o.operands = [] ∧ !o.has 'f' then misused "rm" "missing operand" st
    else st |> forPaths "rm" "cannot remove " o.operands fun path s =>
      match s.locate path with
      | .error fault => if o.has 'f' then .ok s else .error fault
      | .ok _ =>
        if s.isDirectory path ∧ !(o.has 'r' ∨ o.has 'R') then .error .isDirectory
        else .ok (s.remove path)

def rmdir : Utility :=
  withOptions "rmdir" [] [] 1 fun o => withOperands "rmdir" o <|
    forPaths "rmdir" "failed to remove " o.operands fun path s =>
      match s.list path with
      | .error fault => .error fault
      | .ok entries => if entries.isEmpty then .ok (s.remove path) else .error .notEmpty

def mkdir : Utility :=
  withOptions "mkdir" "pv" "m" 1 fun o => withOperands "mkdir" o <|
    forPaths "mkdir" "cannot create directory " o.operands fun path s =>
      if o.has 'p' then
        match s.createDirectories path with
        | (.ok (), s) => .ok s
        | (.error fault, _) => .error fault
      else s.createDirectory path

def touch : Utility :=
  withOptions "touch" "c" [] 1 fun o =>
    forPaths "touch" "cannot touch " o.operands fun path s =>
      if (s.node? path).isSome ∨ o.has 'c' then .ok s else s.writeBytes path []

/-- Do something for every operand but the last, which they go to. What is done may fail for a
reason of its own. -/
def forSources (program : Text) (operands : List Text)
    (f : Text → Text → Store → Except Text Store) (st : State) : State :=
  match operands.getLast? with
  | none => misused program "missing file operand" st
  | some target =>
    if operands.length = 1 then
      misused program ("missing destination file operand after " ++ quote target) st
    else if 2 < operands.length ∧ !st.store.isDirectory (st.pathOf target) then
      fail program 1 ("target " ++ quote target ++ ": " ++
        (if st.store.isFile (st.pathOf target) then FileFault.notDirectory
          else .notFound).reason) st
    else
      operands.dropLast.foldl (fun st path =>
        match st.store.locate (st.pathOf path) with
        | .error fault => fail program 1 ("cannot stat " ++ quote path ++ ": " ++ fault.reason) st
        | .ok _ =>
          let goal := if st.store.isDirectory (st.pathOf target) then
            Path.join target (baseName path) else target
          match f path goal st.store with
          | .ok store => { st with store }
          | .error problem => fail program 1 problem st) st

def cp : Utility :=
  withOptions "cp" "fp" [] 1 fun o st =>
    st |> forSources "cp" o.operands fun path target s =>
      match s.readBytes (st.pathOf path) with
      | .error _ => .error ("-r not specified; omitting directory " ++ quote path)
      | .ok t =>
        (s.writeBytes (st.pathOf target) t).mapError fun fault =>
          "cannot create regular file " ++ quote target ++ ": " ++ fault.reason

def moved (s : Store) (old new : Text) : Store :=
  ⟨.ofList ((s.nodes.entries.filter fun e => e.1 ≠ new).map fun e =>
    if e.1 = old then (new, e.2)
    else (((Path.join old []).isPrefixOf? e.1).map fun rest => (Path.join new rest, e.2)).getD e)⟩

def mv : Utility :=
  withOptions "mv" "fn" [] 1 fun o st =>
    st |> forSources "mv" o.operands fun path target s =>
      match s.locate (st.pathOf path), s.placeFor (st.pathOf target) with
      | .ok old, .ok new =>
        if old = new then
          .error (quote path ++ " and " ++ quote target ++ " are the same file")
        else .ok (moved s old new)
      | _, .error fault =>
        .error ("cannot move " ++ quote path ++ " to " ++ quote target ++ ": " ++ fault.reason)
      | _, _ => .ok s

/-- The names that `ls` shows of a directory. -/
def shownNames (o : Options) (entries : List (Text × Node)) : List Text :=
  (if o.has 'a' then [['.'], ['.', '.']] else []) ++
    (entries.map fun e => Text.encode e.1).filter fun name =>
      name.head? ≠ some '.' || o.has 'a' || o.has 'A'

def ls : Utility :=
  withOptions "ls" "1aA" [] 2 fun o st =>
    let operands := Filter.sortLines false false (if o.operands = [] then [['.']] else o.operands)
    let isListed := fun path => st.store.isDirectory (st.pathOf path)
    let isThere := fun path => (st.store.node? (st.pathOf path)).isSome
    let missing := operands.filter fun path => !isThere path
    let files := operands.filter fun path => isThere path && !isListed path
    let st := missing.foldl (fun st path =>
      fail "ls" 2 ("cannot access " ++ quote path ++ ": " ++ FileFault.notFound.reason) st) st
    let lists := (operands.filter isListed).map fun path =>
      let names := Filter.unlines
        (shownNames o ((st.store.list (st.pathOf path)).toOption.getD []))
      if 1 < operands.length then path ++ ':' :: '\n' :: names else names
    st.emit 1 (Text.join ['\n'] ((if files = [] then [] else [Filter.unlines files]) ++ lists))

def chmod : Utility := fun st arguments =>
  forPaths "chmod" "cannot access " arguments.tail (fun path s => do
    let place ← s.locate path
    return ((s.at? place).map fun node => s.insert place node.setExecutable).getD s)
    (st.withStatus 0)

def sleep : Utility :=
  withOptions "sleep" [] [] 1 fun o => withOperands "sleep" o fun st =>
    let isTime := fun t : Text =>
      let digits := if t.getLast?.any ("smhd" : Text).contains then t.dropLast else t
      digits ≠ [] && digits.all fun c => c.isDigit || c == '.'
    match o.operands.find? fun t => !isTime t with
    | some t => misused "sleep" ("invalid time interval " ++ quote t) st
    | none => st

/-- The value of the arguments of `expr`, which are numbers with signs between them. -/
def expressionValue (arguments : List Text) : Except Text Text :=
  match arguments with
  | [t] => .ok t
  | [a, op, b] =>
    match Condition.number a, Condition.number b with
    | .ok x, .ok y =>
      match Arithmetic.apply (if op = ['='] then ['=', '='] else op) x y with
      | .ok n => .ok (Text.ofInt n)
      | .error _ => .error "division by zero"
    | _, _ =>
      if op = ['='] ∨ op = ['!', '='] then
        .ok (if (a == b) == (op == ['=']) then ['1'] else ['0'])
      else .error "non-integer argument"
  | _ => .error "syntax error"

def expr : Utility := fun st arguments =>
  match expressionValue arguments with
  | .error problem => fail "expr" 2 problem st
  | .ok t => (st.emit 1 (t ++ ['\n'])).withStatus (if t = [] ∨ t = ['0'] then 1 else 0)

def all : List (Text × Utility) :=
  [("cat", cat), ("head", head), ("tail", tail), ("wc", wc), ("tr", tr), ("cut", cut),
    ("sort", sort), ("uniq", uniq), ("tee", tee), ("grep", grep), ("sed", sed), ("seq", seq),
    ("basename", basename), ("dirname", dirname), ("rm", rm), ("rmdir", rmdir),
    ("mkdir", mkdir), ("touch", touch), ("expr", expr), ("cp", cp), ("mv", mv), ("ls", ls),
    ("chmod", chmod), ("sleep", sleep)]

end Utility

end TexCatalog.Shell
