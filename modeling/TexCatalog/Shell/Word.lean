import TexCatalog.Shell.Syntax

/-!
# Words of scripts

A reader of words goes through the bytes of a script with the number of the line. Quotes,
backslashes and dollar signs are read by the rules of the place where they stand.
-/

namespace TexCatalog.Shell

structure Cursor where
  rest : Text
  line : Nat
  /-- How many lines have been taken out behind the line. -/
  taken : Nat := 0

namespace Cursor

def past (k : Cursor) (c : Char) (rest : Text) : Cursor :=
  if c = '\n' then ⟨rest, k.line + 1 + k.taken, 0⟩ else { k with rest }

def pastAll (k : Cursor) : Text → Text → Cursor
  | [], rest => { k with rest }
  | c :: t, rest => (k.past c rest).pastAll t rest

def fault {α : Type} (k : Cursor) (problem : Text) : Except SyntaxFault α :=
  .error ⟨k.line, problem⟩

end Cursor

def isNameStart (c : Char) : Bool := c.isAlpha || c == '_'

def isNameChar (c : Char) : Bool := c.isAlphanum || c == '_'

def isName (t : Text) : Bool := t.head?.any isNameStart && t.all isNameChar

def isSpecial (c : Char) : Bool := ("@*#?-$!" : Text).contains c

def isMeta (c : Char) : Bool := (" \t\n;&|<>()" : Text).contains c

/-- Where a part of a script stands, which decides what ends it and what is special in it. -/
inductive Place where
  | bare
  | quoted
  | document
  | braces (quoted : Bool)
  /-- An expression, up to two closing parentheses; `depth` more are open. -/
  | expression (depth : Nat)
  deriving DecidableEq

namespace Place

def isQuoted : Place → Bool
  | .bare | .braces false => false
  | _ => true

def escapes (p : Place) (c : Char) : Bool :=
  let isAlways := c == '$' || c == '`' || c == '\\'
  match p with
  | .quoted => isAlways || c == '"'
  | .braces true => isAlways || c == '"' || c == '\x7d'
  | .document | .expression _ => isAlways
  | _ => true

end Place

/-- What stands between backquotes, with the backslashes gone that keep it from being read, and the
rest. -/
def backquoted (quoted : Bool) : Text → Option (Text × Text)
  | [] => none
  | '`' :: s => some ([], s)
  | '\\' :: c :: s =>
    if c = '`' ∨ c = '\\' ∨ c = '$' ∨ (quoted ∧ c = '"') then
      (backquoted quoted s).map fun p => (c :: p.1, p.2)
    else (backquoted quoted s).map fun p => ('\\' :: c :: p.1, p.2)
  | c :: s => (backquoted quoted s).map fun p => (c :: p.1, p.2)

def leadingWords : List Text :=
  ["then", "do", "else", "elif", "if", "while", "until", "!", "\x7b"]

inductive Open where
  | parenthesis
  | choice
  deriving DecidableEq

mutual

/-- A script up to the parenthesis that closes it, and the rest. `leads` says that a command may
begin here, and `starts` that a word may. -/
def enclosed : Nat → List Open → Bool → Bool → Text → Option (Text × Text)
  | 0, _, _, _, _ => none
  | _, _, _, _, [] => none
  | fuel + 1, stack, leads, starts, c :: s =>
    let behind := fun (t rest : Text) (stack : List Open) (leads starts : Bool) =>
      (enclosed fuel stack leads starts rest).map fun p => (t ++ p.1, p.2)
    if c = '\\' then behind (c :: s.take 1) (s.drop 1) stack false false
    else if c = '\'' then
      let t := s.takeWhile (· ≠ '\'')
      behind (c :: t ++ ['\'']) (s.drop (t.length + 1)) stack false false
    else if c = '"' then
      (enclosedQuote fuel s).bind fun p => behind (c :: p.1) p.2 stack false false
    else if c = '#' ∧ starts then
      let t := s.takeWhile (· ≠ '\n')
      behind (c :: t) (s.drop t.length) stack leads true
    else if c = '(' then behind [c] s (.parenthesis :: stack) true true
    else if c = ')' then
      match stack with
      | [] => some ([], s)
      | .parenthesis :: stack => behind [c] s stack false true
      | stack => behind [c] s stack true true
    else if c = ' ' ∨ c = '\t' then behind [c] s stack leads true
    else if c = '\n' ∨ c = ';' ∨ c = '&' ∨ c = '|' then behind [c] s stack true true
    else if starts then
      let word := (c :: s).takeWhile fun c => !isMeta c && c != '"' && c != '\'' && c != '\\' &&
        c != '$' && c != '`'
      if word = [] then behind [c] s stack false false
      else
        let stack :=
          if leads ∧ word = ("case" : Text) then .choice :: stack
          else if leads ∧ word = ("esac" : Text) ∧ stack.head? = some .choice then stack.tail
          else stack
        behind word ((c :: s).drop word.length) stack (leads && leadingWords.contains word) false
    else behind [c] s stack leads false

def enclosedQuote : Nat → Text → Option (Text × Text)
  | 0, _ => none
  | _, [] => none
  | fuel + 1, c :: s =>
    if c = '"' then some ([c], s)
    else if c = '\\' then
      (enclosedQuote fuel (s.drop 1)).map fun p => (c :: s.take 1 ++ p.1, p.2)
    else if c = '$' ∧ s.head? = some '(' then
      (enclosed fuel [] true true s.tail).bind fun p =>
        (enclosedQuote fuel p.2).map fun q => (c :: '(' :: p.1 ++ ')' :: q.1, q.2)
    else (enclosedQuote fuel s).map fun p => (c :: p.1, p.2)

end

def parameterName? : Text → Option (Text × Text)
  | [] => none
  | c :: s =>
    if isNameStart c then some ((c :: s).takeWhile isNameChar, (c :: s).dropWhile isNameChar)
    else if c.isDigit then some ((c :: s).takeWhile Char.isDigit, (c :: s).dropWhile Char.isDigit)
    else if isSpecial c then some ([c], s)
    else none

/-- What is done with the word behind the operator of a parameter, and what stands behind the
operator. -/
def use? (s : Text) : Option ((Word → Use) × Text) :=
  let orEmpty := s.head? == some ':'
  match if orEmpty then s.tail else s with
  | '-' :: s => some (.default orEmpty, s)
  | '=' :: s => some (.assign orEmpty, s)
  | '?' :: s => some (.require orEmpty, s)
  | '+' :: s => some (.alternative orEmpty, s)
  | '%' :: '%' :: s => if orEmpty then none else some (.strip false true, s)
  | '%' :: s => if orEmpty then none else some (.strip false false, s)
  | '#' :: '#' :: s => if orEmpty then none else some (.strip true true, s)
  | '#' :: s => if orEmpty then none else some (.strip true false, s)
  | _ => none

/-- The word between quotation marks stands for a field even if it is empty, unless it is nothing
but all arguments. -/
def quotedWord : Word → Word
  | [.parameter q ['@'] .value] => [.parameter q ['@'] .value]
  | w => w ++ [.text true []]

mutual

/-- The word at the start of what is left, up to what ends it in its place. -/
def readWord : Nat → Place → Cursor → Except SyntaxFault (Word × Cursor)
  | 0, _, k => k.fault "Word too long"
  | fuel + 1, p, k =>
    let front := fun (part : Part) (r : Except SyntaxFault (Word × Cursor)) =>
      r.map fun q => (part :: q.1, q.2)
    match k.rest with
    | [] =>
      match p with
      | .bare | .document => .ok ([], k)
      | .quoted => k.fault "Unterminated quoted string"
      | .braces _ => k.fault "Missing '\x7d'"
      | .expression _ => k.fault "Missing '))'"
    | c :: s =>
      let onward := fun (q : Bool) =>
        (readWord fuel p (k.past c s)).map fun r => (Word.cons q c r.1, r.2)
      if p = .bare ∧ isMeta c then .ok ([], k)
      else if p = .quoted ∧ c = '"' then .ok ([], k.past c s)
      else if (p = .braces false ∨ p = .braces true) ∧ c = '\x7d' then .ok ([], k.past c s)
      else if c = '\\' then
        match s with
        | [] => onward p.isQuoted
        | '\n' :: rest => readWord fuel p (k.past '\n' rest)
        | d :: rest =>
          if p.escapes d then front (.text true [d]) (readWord fuel p (k.past d rest))
          else onward p.isQuoted
      else if c = '$' then
        match readDollar fuel p { k with rest := s } with
        | .error e => .error e
        | .ok (none, _) => onward p.isQuoted
        | .ok (some part, k) => front part (readWord fuel p k)
      else if c = '`' then
        match backquoted p.isQuoted s with
        | none => (k.pastAll s []).fault "EOF in backquote substitution"
        | some (t, rest) => front (.script p.isQuoted 1 t) (readWord fuel p (k.pastAll t rest))
      else if c = '\'' ∧ !p.isQuoted then
        match s.dropWhile (· ≠ '\'') with
        | [] => (k.pastAll s []).fault "Unterminated quoted string"
        | _ :: rest =>
          let t := s.takeWhile (· ≠ '\'')
          front (.text true t) (readWord fuel p (k.pastAll t rest))
      else if c = '"' ∧ (!p.isQuoted ∨ p = .braces true) then
        match readWord fuel .quoted (k.past c s) with
        | .error e => .error e
        | .ok (w, k) => (readWord fuel p k).map fun r => (quotedWord w ++ r.1, r.2)
      else
        match p with
        | .expression depth =>
          if c = '(' then
            (readWord fuel (.expression (depth + 1)) (k.past c s)).map fun r =>
              (Word.cons true c r.1, r.2)
          else if c = ')' then
            match depth, s with
            | 0, ')' :: rest => .ok ([], { k with rest })
            | 0, _ => onward true
            | d + 1, _ =>
              (readWord fuel (.expression d) (k.past c s)).map fun r => (Word.cons true c r.1, r.2)
          else onward true
        | _ => onward p.isQuoted

def readDollar : Nat → Place → Cursor → Except SyntaxFault (Option Part × Cursor)
  | 0, _, k => k.fault "Word too long"
  | fuel + 1, p, k =>
    let q := p.isQuoted
    match k.rest with
    | '(' :: '(' :: s =>
      match readWord fuel (.expression 0) { k with rest := s } with
      | .error e => .error e
      | .ok (w, k) => .ok (some (.arithmetic q w), k)
    | '(' :: s =>
      match enclosed (s.length + 1) [] true true s with
      | none => (k.pastAll s []).fault "end of file unexpected (expecting \")\")"
      | some (t, rest) => .ok (some (.script q k.line t), k.pastAll t rest)
    | '\x7b' :: s => readBraces fuel p { k with rest := s }
    | c :: s =>
      if isNameStart c then
        let name := (c :: s).takeWhile isNameChar
        .ok (some (.parameter q name .value), { k with rest := (c :: s).dropWhile isNameChar })
      else if isSpecial c ∨ c.isDigit then
        .ok (some (.parameter q [c] .value), { k with rest := s })
      else .ok (none, k)
    | [] => .ok (none, k)

def readBraces : Nat → Place → Cursor → Except SyntaxFault (Option Part × Cursor)
  | 0, _, k => k.fault "Word too long"
  | fuel + 1, p, k =>
    let q := p.isQuoted
    let lengthOf? :=
      match k.rest with
      | '#' :: s =>
        match parameterName? s with
        | some (name, '\x7d' :: rest) => some (name, rest)
        | _ => none
      | _ => none
    match lengthOf? with
    | some (name, rest) => .ok (some (.parameter q name .length), { k with rest })
    | none =>
      match parameterName? k.rest with
      | none =>
        if k.rest.head? = some '\n' ∧ !q then k.fault "Missing '\x7d'"
        else (readWord fuel (.braces q) k).map fun r => (some (.parameter q [] .bad), r.2)
      | some (name, '\x7d' :: rest) => .ok (some (.parameter q name .value), { k with rest })
      | some (name, s) =>
        match use? s with
        | none =>
          (readWord fuel (.braces q) { k with rest := s }).map fun r =>
            (some (.parameter q name .bad), r.2)
        | some (use, rest) =>
          let inner : Place :=
            match use [] with
            | .strip .. => .braces false
            | _ => .braces q
          (readWord fuel inner { k with rest }).map fun r =>
            (some (.parameter q name (use r.1)), r.2)

end

end TexCatalog.Shell
