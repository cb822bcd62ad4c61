import TexCatalog.Shell.Arithmetic
import TexCatalog.Shell.State

/-!
# Conditions of scripts

The command `test` decides on files, texts and numbers. Its arguments are read as an expression, in
which an operator that stands where only a text fits is that text.
-/

namespace TexCatalog.Shell.Condition

def unaryOperators : List Text :=
  ["-r", "-w", "-x", "-e", "-f", "-d", "-c", "-b", "-p", "-u", "-g", "-k", "-s", "-t", "-z", "-n",
    "-h", "-O", "-G", "-L", "-S"]

def binaryOperators : List Text :=
  ["=", "!=", "<", ">", "-eq", "-ne", "-ge", "-gt", "-le", "-lt", "-nt", "-ot", "-ef"]

def isUnary (t : Text) : Bool := unaryOperators.contains t

def isBinary (t : Text) : Bool := binaryOperators.contains t

/-- Is the text in front of others meant itself, though it looks like an operator? -/
def isOperand : List Text → Bool
  | [] => true
  | [_] => false
  | next :: _ => isBinary next

/-- Does an operator in front of one text hold for it? -/
def holdsOf (st : State) (op t : Text) : Bool :=
  if op = ("-z" : Text) then t = []
  else if op = ("-n" : Text) then t ≠ []
  else if op = ("-t" : Text) then false
  else
    let node? := st.store.node? (st.pathOf t)
    if op = ("-f" : Text) then node?.any Node.isFile
    else if op = ("-d" : Text) then node?.any Node.isDirectory
    else if op = ("-s" : Text) then
      node?.any fun node => node.isDirectory || node.bytes?.any (· ≠ [])
    else if op = ("-x" : Text) then
      node?.any fun node => node.isDirectory || node.isExecutable
    else if op = ("-c" : Text) then node?.any fun node => node == .sink
    else if op = ("-e" : Text) ∨ op = ("-r" : Text) ∨ op = ("-w" : Text) ∨ op = ("-O" : Text) ∨
        op = ("-G" : Text) then
      node?.isSome || (State.channelOfPath? t).isSome
    else false

def number (t : Text) : Except Text Int :=
  let s := (t.dropWhile fun c => c = ' ' ∨ c = '\t' ∨ c = '\n').reverse.dropWhile
    (fun c => c = ' ' ∨ c = '\t' ∨ c = '\n') |>.reverse
  let digits := if s.head? = some '-' ∨ s.head? = some '+' then s.tail else s
  if digits ≠ [] ∧ digits.all Char.isDigit then
    let n := Arithmetic.natOf 10 digits
    if n < 9223372036854775808 then .ok (if s.head? = some '-' then -(n : Int) else n)
    else .error ("Illegal number: " ++ t)
  else .error ("Illegal number: " ++ t)

def holdsBetween (st : State) (op a b : Text) : Except Text Bool := do
  if op = ['='] then return a = b
  if op = ['!', '='] then return a ≠ b
  if op = ['<'] then return a < b
  if op = ['>'] then return b < a
  if op = ("-ef" : Text) then
    return st.store.locate (st.pathOf a) |>.toOption.any fun place =>
      (st.store.locate (st.pathOf b)).toOption == some place
  if op = ("-nt" : Text) ∨ op = ("-ot" : Text) then return false
  let x ← number a
  let y ← number b
  if op = ("-eq" : Text) then return x = y
  if op = ("-ne" : Text) then return x ≠ y
  if op = ("-lt" : Text) then return x < y
  if op = ("-le" : Text) then return x ≤ y
  if op = ("-gt" : Text) then return y < x
  return y ≤ x

mutual

/-- Conditions of which one is to hold; the rest is given too. -/
def disjunction (st : State) : Nat → List Text → Except Text (Bool × List Text)
  | 0, _ => .error "argument expected"
  | fuel + 1, ts => do
    let (a, rest) ← conjunction st fuel ts
    match rest with
    | ['-', 'o'] :: more =>
      let (b, rest) ← disjunction st fuel more
      return (a || b, rest)
    | rest => return (a, rest)

def conjunction (st : State) : Nat → List Text → Except Text (Bool × List Text)
  | 0, _ => .error "argument expected"
  | fuel + 1, ts => do
    let (a, rest) ← negation st fuel ts
    match rest with
    | ['-', 'a'] :: more =>
      let (b, rest) ← conjunction st fuel more
      return (a && b, rest)
    | rest => return (a, rest)

def negation (st : State) : Nat → List Text → Except Text (Bool × List Text)
  | 0, _ => .error "argument expected"
  | fuel + 1, ts => do
    match ts with
    | ['!'] :: next :: more =>
      if isBinary next ∧ more ≠ [] then primary st fuel ts
      else
        let (a, rest) ← negation st fuel (next :: more)
        return (!a, rest)
    | ts => primary st fuel ts

def primary (st : State) : Nat → List Text → Except Text (Bool × List Text)
  | 0, _ => .error "argument expected"
  | fuel + 1, ts => do
    match ts with
    | [] => return (false, [])
    | t :: more =>
      if t = ['('] ∧ more ≠ [] then
        let (a, rest) ← disjunction st fuel more
        match rest with
        | [')'] :: rest => return (a, rest)
        | _ => .error "closing paren expected"
      else if isUnary t ∧ !isOperand more ∧ more ≠ [] then
        return (holdsOf st t (more.headD []), more.tail)
      else
        match more with
        | op :: b :: rest =>
          if isBinary op then return (← holdsBetween st op t b, rest)
          else return (t ≠ [], more)
        | [op] =>
          if isBinary op then .error (op ++ ": argument expected") else return (t ≠ [], more)
        | [] => return (t ≠ [], [])

end

def holds (st : State) (ts : List Text) : Except Text Bool := do
  if ts = [] then return false
  let (b, rest) ← disjunction st (4 * ts.length + 4) ts
  match rest with
  | [] => return b
  | _ => .error (ts[ts.length - rest.length - 1]?.getD [] ++ ": unexpected operator")

end TexCatalog.Shell.Condition
