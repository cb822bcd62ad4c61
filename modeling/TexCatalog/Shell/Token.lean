import TexCatalog.Shell.Word

/-!
# Tokens of scripts

A script is a row of words, redirections and operators up to its end or to the place where it cannot
be read on. Every token has the number of the line that the reader has reached behind it.
-/

namespace TexCatalog.Shell

inductive Token where
  | word (w : Word)
  | redirection (r : Redirection)
  | operator (sign : Text)
  | newline
  | finish
  | broken (problem : Text)

structure Lexeme where
  token : Token
  line : Nat

namespace Token

def keywords : List Text :=
  ["!", "case", "do", "done", "elif", "else", "esac", "fi", "for", "if", "in", "then", "until",
    "while", "\x7b", "\x7d"]

/-- The name of a token in messages; `inCommand` tells whether keywords count here. -/
def name (inCommand : Bool) : Token → Text
  | .word w =>
    match w.bare? with
    | some t => if inCommand ∧ keywords.contains t then "\"" ++ t ++ ['"'] else "word"
    | none => "word"
  | .redirection _ => "redirection"
  | .operator sign => "\"" ++ sign ++ ['"']
  | .newline => "newline"
  | .finish => "end of file"
  | .broken _ => []

end Token

def operators : List Text := ["&&", "||", ";;", ";", "&", "|", "(", ")"]

def redirectionSigns : List (Text × Nat) :=
  [("<<-", 0), ("<<", 0), ("<&", 0), ("<>", 0), ("<", 0), (">>", 1), (">&", 1), (">|", 1), (">", 1)]

def signAt? (signs : List Text) (s : Text) : Option (Text × Text) :=
  signs.findSome? fun sign => (sign.isPrefixOf? s).map fun rest => (sign, rest)

/-- A redirection sign with the number of a channel in front of it, and the rest. -/
def redirectionAt? (s : Text) : Option (Nat × Text × Text) :=
  let digits := s.takeWhile Char.isDigit
  (signAt? (redirectionSigns.map Prod.fst) (s.dropWhile Char.isDigit)).map fun p =>
    let channel :=
      if digits = [] then ((redirectionSigns.find? fun e => e.1 == p.1).map Prod.snd).getD 0
      else digits.foldl (fun n c => n * 10 + (c.toNat - '0'.toNat)) 0
    (channel, p.1, p.2)

/-- The lines of a document up to its end mark, and the rest behind that line. -/
def documentBody (tabs : Bool) (mark : Text) : List Text → Text × Nat × Text
  | [] => ([], 0, [])
  | line :: more =>
    let line := if tabs then line.dropWhile (· = '\t') else line
    if line = mark ∨ line = mark ++ ['\n'] then ([], 1, more.flatten)
    else
      match documentBody tabs mark more with
      | (body, count, rest) => (line ++ body, count + 1, rest)

/-- The document that stands behind the line, and the cursor with it taken out. -/
def takeDocument (tabs : Bool) (mark : Word) (k : Cursor) :
    Except SyntaxFault (Word × Cursor) :=
  let line := k.rest.takeWhile (· ≠ '\n')
  let (body, count, rest) :=
    documentBody tabs (mark.filterMap Part.plain?).flatten
      (Text.segments (k.rest.dropWhile (· ≠ '\n')).tail)
  let after : Cursor := ⟨line ++ '\n' :: rest, k.line, k.taken + count⟩
  if mark.any Part.isQuoted then .ok ([.text true body], after)
  else
    (readWord (2 * body.length + 4) .document ⟨body, k.line + 1 + k.taken, 0⟩).map fun r =>
      (r.1, after)

def toToken : Nat → Cursor → Cursor
  | 0, k => k
  | fuel + 1, k =>
    match k.rest with
    | ' ' :: s => toToken fuel { k with rest := s }
    | '\t' :: s => toToken fuel { k with rest := s }
    | '\\' :: '\n' :: s => toToken fuel (k.past '\n' s)
    | '#' :: s => { k with rest := s.dropWhile (· ≠ '\n') }
    | _ => k

def wordAt (k : Cursor) : Except SyntaxFault (Word × Cursor) :=
  readWord (2 * k.rest.length + 4) .bare k

/-- The redirection with a sign, and the cursor behind its word. -/
def redirectionOf (channel : Nat) (sign : Text) (k : Cursor) :
    Except SyntaxFault (Redirection × Cursor) := do
  let (w, k) ← wordAt (toToken k.rest.length k)
  if w.isEmpty then
    match k.rest with
    | [] => return ← k.fault "end of file unexpected"
    | '\n' :: s => return ← (k.past '\n' s).fault "newline unexpected"
    | s =>
      let shown := ((signAt? operators s).map fun p => "\"" ++ p.1 ++ ['"']).getD "redirection"
      return ← k.fault (shown ++ " unexpected")
  if sign = ['<', '<'] ∨ sign = ['<', '<', '-'] then
    let (document, k) ← takeDocument (sign.length == 3) w k
    return (⟨channel, .document document⟩, k)
  let target : Target :=
    if sign = ['<'] ∨ sign = ['<', '>'] then .input w
    else if sign.getLast? = some '&' then .channel w
    else .output (sign == ['>', '>']) w
  return (⟨channel, target⟩, k)

def nextToken (k : Cursor) : Except SyntaxFault (Token × Cursor) :=
  let k := toToken k.rest.length k
  match k.rest with
  | [] => .ok (.finish, k)
  | '\n' :: s => .ok (.newline, k.past '\n' s)
  | s =>
    match redirectionAt? s with
    | some (channel, sign, rest) =>
      (redirectionOf channel sign { k with rest }).map fun r => (.redirection r.1, r.2)
    | none =>
      match signAt? operators s with
      | some (sign, rest) => .ok (.operator sign, { k with rest })
      | none => (wordAt k).map fun r => (.word r.1, r.2)

/-- The tokens of a script; the last one says how it ends. -/
def tokens : Nat → Cursor → List Lexeme
  | 0, k => [⟨.finish, k.line⟩]
  | fuel + 1, k =>
    match nextToken k with
    | .error fault => [⟨.broken fault.problem, fault.line⟩]
    | .ok (.finish, k) => [⟨.finish, k.line⟩]
    | .ok (token, k) => ⟨token, k.line⟩ :: tokens fuel k

end TexCatalog.Shell
