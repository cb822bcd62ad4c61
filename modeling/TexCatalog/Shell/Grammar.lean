import TexCatalog.Shell.Token

/-!
# Grammar of scripts

Commands are read from tokens by recursive descent. A script is read line by line, since a line has
been run before the next one is found to be no command.
-/

namespace TexCatalog.Shell

/-- A piece of a script with the tokens behind it. -/
abbrev Parsed (α : Type) := α × List Lexeme

def unexpected {α : Type} (inCommand : Bool) (expecting : Option Text) (ts : List Lexeme) :
    Except SyntaxFault α :=
  match ts with
  | [] => .error ⟨0, "end of file unexpected"⟩
  | ⟨.broken problem, line⟩ :: _ => .error ⟨line, problem⟩
  | ⟨token, line⟩ :: _ =>
    let wanted :=
      match expecting with
      | none => []
      | some t => " (expecting " ++ t ++ [')']
    .error ⟨line, token.name inCommand ++ " unexpected" ++ wanted⟩

def quotedSign (t : Text) : Text := '"' :: t ++ ['"']

def keyword? (ts : List Lexeme) : Option Text :=
  match ts with
  | ⟨.word w, _⟩ :: _ => w.bare?.filter Token.keywords.contains
  | _ => none

def operatorAt? (ts : List Lexeme) : Option Text :=
  match ts with
  | ⟨.operator sign, _⟩ :: _ => some sign
  | _ => none

def skipNewlines (ts : List Lexeme) : List Lexeme :=
  ts.dropWhile fun t =>
    match t.token with
    | .newline => true
    | _ => false

def atNewline (ts : List Lexeme) : Bool :=
  match ts with
  | ⟨.newline, _⟩ :: _ => true
  | _ => false

def atFinish (ts : List Lexeme) : Bool :=
  match ts with
  | ⟨.finish, _⟩ :: _ => true
  | _ => false

def expectKeyword (k : Text) (ts : List Lexeme) : Except SyntaxFault (List Lexeme) :=
  if keyword? ts = some k then .ok ts.tail else unexpected true (some (quotedSign k)) ts

def expectOperator (sign : Text) (ts : List Lexeme) : Except SyntaxFault (List Lexeme) :=
  if operatorAt? ts = some sign then .ok ts.tail
  else unexpected true (some (quotedSign sign)) ts

def endsList (ts : List Lexeme) : Bool :=
  atFinish ts || ((operatorAt? ts).any fun sign => sign == [')'] || sign == [';', ';']) ||
    (keyword? ts).any
      ([("then" : Text), "else", "elif", "fi", "do", "done", "esac", "\x7d"].contains ·)

def redirections : List Lexeme → List Redirection × List Lexeme
  | ⟨.redirection r, _⟩ :: ts => (r :: (redirections ts).1, (redirections ts).2)
  | ts => ([], ts)

def wordsAt : List Lexeme → List Word × List Lexeme
  | ⟨.word w, _⟩ :: ts => (w :: (wordsAt ts).1, (wordsAt ts).2)
  | ts => ([], ts)

def assignment? (w : Word) : Option (Text × Word) :=
  match w with
  | .text false t :: more =>
    match Text.cut? ['='] t with
    | some (name, value) =>
      if isName name then some (name, if value = [] then more else .text false value :: more)
      else none
    | none => none
  | _ => none

structure Pieces where
  assignments : List (Text × Word) := []
  words : List Word := []
  redirections : List Redirection := []

/-- The pieces of a simple command; words that assign stand in front. -/
def pieces : List Lexeme → Pieces × List Lexeme
  | ⟨.redirection r, _⟩ :: ts =>
    let (p, rest) := pieces ts
    ({ p with redirections := r :: p.redirections }, rest)
  | ⟨.word w, _⟩ :: ts =>
    match assignment? w with
    | some a =>
      let (p, rest) := pieces ts
      ({ p with assignments := a :: p.assignments }, rest)
    | none => arguments (⟨.word w, 0⟩ :: ts)
  | ts => ({}, ts)
where
  arguments : List Lexeme → Pieces × List Lexeme
  | ⟨.redirection r, _⟩ :: ts =>
    let (p, rest) := arguments ts
    ({ p with redirections := r :: p.redirections }, rest)
  | ⟨.word w, _⟩ :: ts =>
    let (p, rest) := arguments ts
    ({ p with words := w :: p.words }, rest)
  | ts => ({}, ts)

/-- A command, which begins at a line, with the redirections behind it. -/
def withRedirections (line : Nat) (c : Command) (ts : List Lexeme) : Command × List Lexeme :=
  match redirections ts with
  | ([], ts) => (c, ts)
  | (rs, rest) => (.redirected line c rs, rest)

/-- The patterns in front of an item of a choice. -/
def patterns : Nat → List Lexeme → Except SyntaxFault (Parsed (List Word))
  | 0, ts => unexpected false none ts
  | fuel + 1, ts =>
    let rest := if atFinish ts then ts else ts.tail
    let w : Word :=
      match ts with
      | ⟨.word w, _⟩ :: _ => w
      | _ => []
    if operatorAt? rest = some ['|'] then do
      let (ws, rest) ← patterns fuel rest.tail
      return (w :: ws, rest)
    else do return ([w], ← expectOperator [')'] rest)

def loopHead (ts : List Lexeme) : Except SyntaxFault (Parsed (Text × Option (List Word))) :=
  match ts with
  | ⟨.word w, line⟩ :: rest =>
    match w.bare?.filter isName with
    | none => .error ⟨line, "Bad for loop variable"⟩
    | some name =>
      if keyword? (skipNewlines rest) = some ("in" : Text) then
        let (ws, rest) := wordsAt (skipNewlines rest).tail
        if atNewline rest ∨ operatorAt? rest = some [';'] then .ok ((name, some ws), rest.tail)
        else unexpected false none rest
      else .ok ((name, none), if operatorAt? rest = some [';'] then rest.tail else rest)
  | ⟨_, line⟩ :: _ => .error ⟨line, "Bad for loop variable"⟩
  | [] => unexpected false none ts

mutual

def listOf : Nat → Bool → List Lexeme → Except SyntaxFault (Parsed Command)
  | 0, _, ts => unexpected true none ts
  | fuel + 1, mayEnd, ts => do
    let ts := skipNewlines ts
    if atFinish ts ∨ (mayEnd ∧ endsList ts) then return (.nothing, ts)
    let (c, ts) ← chain fuel ts
    if operatorAt? ts = some ['&'] then
      let (d, ts) ← listOf fuel true ts.tail
      return (.sequence (.background c) d, ts)
    if atNewline ts ∨ operatorAt? ts = some [';'] then
      let (d, ts) ← listOf fuel true ts.tail
      return (.sequence c d, ts)
    return (c, ts)

def chain : Nat → List Lexeme → Except SyntaxFault (Parsed Command)
  | 0, ts => unexpected true none ts
  | fuel + 1, ts => do
    let (c, ts) ← pipeline fuel ts
    chainRest fuel c ts

def chainRest : Nat → Command → List Lexeme → Except SyntaxFault (Parsed Command)
  | 0, _, ts => unexpected true none ts
  | fuel + 1, c, ts => do
    if operatorAt? ts = some ['&', '&'] then
      let (d, ts) ← pipeline fuel (skipNewlines ts.tail)
      chainRest fuel (.both c d) ts
    else if operatorAt? ts = some ['|', '|'] then
      let (d, ts) ← pipeline fuel (skipNewlines ts.tail)
      chainRest fuel (.either c d) ts
    else return (c, ts)

def pipeline : Nat → List Lexeme → Except SyntaxFault (Parsed Command)
  | 0, ts => unexpected true none ts
  | fuel + 1, ts => do
    if keyword? ts = some ['!'] then
      let (c, ts) ← stages fuel ts.tail
      return (.negation c, ts)
    else stages fuel ts

def stages : Nat → List Lexeme → Except SyntaxFault (Parsed Command)
  | 0, ts => unexpected true none ts
  | fuel + 1, ts => do
    let (c, ts) ← command fuel ts
    if operatorAt? ts = some ['|'] then
      let (d, ts) ← stages fuel (skipNewlines ts.tail)
      match d with
      | .pipe more => return (.pipe (c :: more), ts)
      | d => return (.pipe [c, d], ts)
    else return (c, ts)

def command : Nat → List Lexeme → Except SyntaxFault (Parsed Command)
  | 0, ts => unexpected true none ts
  | fuel + 1, ts => do
    let line := (ts.head?.map Lexeme.line).getD 0
    if operatorAt? ts = some ['('] then
      let (c, ts) ← listOf fuel false ts.tail
      return withRedirections line (.subshell c) (← expectOperator [')'] ts)
    match keyword? ts with
    | some k =>
      let inner := ts.tail
      if k = ("if" : Text) then
        let (c, ts) ← branches fuel inner
        return withRedirections line c (← expectKeyword "fi" ts)
      if k = ("while" : Text) ∨ k = ("until" : Text) then
        let (condition, ts) ← listOf fuel false inner
        let (body, ts) ← listOf fuel false (← expectKeyword "do" ts)
        return withRedirections line (.loop (k.head? == some 'u') condition body)
          (← expectKeyword "done" ts)
      if k = ("for" : Text) then
        let (head, ts) ← loopHead inner
        let (body, ts) ← listOf fuel false (← expectKeyword "do" (skipNewlines ts))
        let line := (inner.head?.map Lexeme.line).getD 0
        return withRedirections line (.forEach line head.1 head.2 body) (← expectKeyword "done" ts)
      if k = ("case" : Text) then
        match inner with
        | ⟨.word w, line⟩ :: ts =>
          let (items, ts) ← caseItems fuel (← expectKeyword "in" (skipNewlines ts))
          return withRedirections line (.choose line w items) ts
        | ts => unexpected false (some "word") ts
      if k = ['\x7b'] then
        let (c, ts) ← listOf fuel false inner
        return withRedirections line c (← expectKeyword ['\x7d'] ts)
      unexpected true none ts
    | none =>
      match ts with
      | ⟨.word w, line⟩ :: rest =>
        if operatorAt? rest = some ['('] ∧ (assignment? w).isNone then
          let rest ← expectOperator [')'] rest.tail
          match w.bare?.filter isName with
          | none => .error ⟨line, "Bad function name"⟩
          | some name =>
            let (body, rest) ← command fuel (skipNewlines rest)
            return (.define name body, rest)
        else
          let (p, rest) := pieces ts
          return (.simple line p.assignments p.words p.redirections, rest)
      | ⟨.redirection _, line⟩ :: _ =>
        let (p, rest) := pieces ts
        return (.simple line p.assignments p.words p.redirections, rest)
      | ts => unexpected true none ts

/-- A condition and what is done by it, behind the keyword. -/
def branches : Nat → List Lexeme → Except SyntaxFault (Parsed Command)
  | 0, ts => unexpected true none ts
  | fuel + 1, ts => do
    let (condition, ts) ← listOf fuel false ts
    let (body, ts) ← listOf fuel false (← expectKeyword "then" ts)
    if keyword? ts = some ("elif" : Text) then
      let (otherwise, ts) ← branches fuel ts.tail
      return (.branch condition body otherwise, ts)
    else if keyword? ts = some ("else" : Text) then
      let (otherwise, ts) ← listOf fuel false ts.tail
      return (.branch condition body otherwise, ts)
    else return (.branch condition body .nothing, ts)

def caseItems : Nat → List Lexeme → Except SyntaxFault (Parsed (List (List Word × Command)))
  | 0, ts => unexpected true none ts
  | fuel + 1, ts => do
    let ts := skipNewlines ts
    if keyword? ts = some ("esac" : Text) then return ([], ts.tail)
    let ts := if operatorAt? ts = some ['('] then ts.tail else ts
    let (ps, ts) ← patterns ts.length ts
    let (body, ts) ← listOf fuel true ts
    let ts := skipNewlines ts
    if keyword? ts = some ("esac" : Text) then return ([(ps, body)], ts.tail)
    let (items, ts) ← caseItems fuel (← expectOperator [';', ';'] ts)
    return ((ps, body) :: items, ts)

end

def lineOf : Nat → Nat → List Lexeme → Except SyntaxFault (Parsed Command)
  | 0, _, ts => unexpected true none ts
  | count + 1, fuel, ts => do
    if atNewline ts then return (.nothing, ts.tail)
    if atFinish ts then return (.nothing, ts)
    let (c, ts) ← chain fuel ts
    if operatorAt? ts = some ['&'] then
      let (d, ts) ← lineOf count fuel ts.tail
      return (.sequence (.background c) d, ts)
    if operatorAt? ts = some [';'] then
      let (d, ts) ← lineOf count fuel ts.tail
      return (.sequence c d, ts)
    if atNewline ts then return (c, ts.tail)
    if atFinish ts then return (c, ts)
    unexpected true none ts

end TexCatalog.Shell
