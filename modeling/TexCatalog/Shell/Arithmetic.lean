import TexCatalog.Text.Basic

/-!
# Arithmetic of scripts

An expression is read with the usual precedences and evaluated on integers of 64 bits. Assignments
in it change variables from left to right.
-/

namespace TexCatalog.Shell

inductive Term where
  | number (n : Int)
  | variable (name : Text)
  | unary (op : Text) (t : Term)
  | binary (op : Text) (a b : Term)
  | assign (op name : Text) (t : Term)
  | choose (condition a b : Term)

inductive ArithmeticFault where
  | primary
  | expression
  | divisionByZero
  | unclosed
  | badNumber (t : Text)

namespace ArithmeticFault

def message (expression : Text) : ArithmeticFault → Text
  | .primary => "arithmetic expression: expecting primary: \"" ++ expression ++ ['"']
  | .expression => "arithmetic expression: expecting EOF: \"" ++ expression ++ ['"']
  | .divisionByZero => "arithmetic expression: division by zero: \"" ++ expression ++ ['"']
  | .unclosed => "arithmetic expression: expecting ')': \"" ++ expression ++ ['"']
  | .badNumber t => "Illegal number: " ++ t

end ArithmeticFault

namespace Arithmetic

def wrap (n : Int) : Int := Int.bmod n 18446744073709551616

def digitValue? (c : Char) : Option Nat :=
  if '0' ≤ c ∧ c ≤ '9' then some (c.toNat - '0'.toNat)
  else if 'a' ≤ c ∧ c ≤ 'f' then some (c.toNat - 'a'.toNat + 10)
  else if 'A' ≤ c ∧ c ≤ 'F' then some (c.toNat - 'A'.toNat + 10)
  else none

def isDigitOf (base : Nat) (c : Char) : Bool := (digitValue? c).any (· < base)

def natOf (base : Nat) (digits : Text) : Nat :=
  digits.foldl (fun n c => n * base + (digitValue? c).getD 0) 0

/-- The number at the start of a text, in base 16 behind `0x` and in base 8 behind `0`, and the
rest. -/
def number? (s : Text) : Option (Nat × Text) :=
  let (base, digits) :=
    match s with
    | '0' :: 'x' :: t => (16, t)
    | '0' :: 'X' :: t => (16, t)
    | '0' :: _ => (8, s)
    | _ => (10, s)
  if (s.head?.any Char.isDigit) ∧ digits.head?.any (isDigitOf base) then
    some (natOf base (digits.takeWhile (isDigitOf base)), digits.dropWhile (isDigitOf base))
  else none

def valueOf (t : Text) : Except ArithmeticFault Int :=
  let s := (t.dropWhile (· = ' ')).reverse.dropWhile (· = ' ') |>.reverse
  let (negative, digits) :=
    match s with
    | '-' :: d => (true, d)
    | '+' :: d => (false, d)
    | d => (false, d)
  if s = [] then .ok 0
  else
    match number? digits with
    | some (n, []) => .ok (wrap (if negative then -n else n))
    | _ => .error (.badNumber t)

def isNameStart (c : Char) : Bool := c.isAlpha || c == '_'

def skip (s : Text) : Text := s.dropWhile fun c => c = ' ' ∨ c = '\t' ∨ c = '\n'

/-- The operators between terms, those that bind the loosest first; an operator is found before the
ones that it begins with. -/
def levels : List (List Text) :=
  [["||"], ["&&"], ["|"], ["^"], ["&"], ["==", "!="], ["<=", ">=", "<", ">"], ["<<", ">>"],
    ["+", "-"], ["*", "/", "%"]]

def signs : List Text :=
  ["<<=", ">>=", "||", "&&", "==", "!=", "<=", ">=", "<<", ">>", "+=", "-=", "*=", "/=", "%=", "&=",
    "^=", "|=", "|", "^", "&", "<", ">", "+", "-", "*", "/", "%", "=", "?", ":"]

def sign? (s : Text) : Option (Text × Text) :=
  signs.findSome? fun sign => (sign.isPrefixOf? (skip s)).map fun rest => (sign, rest)

def assigning : List Text :=
  ["=", "+=", "-=", "*=", "/=", "%=", "&=", "^=", "|=", "<<=", ">>="]

mutual

def term : Nat → Text → Except ArithmeticFault (Term × Text)
  | 0, _ => .error .primary
  | fuel + 1, s => do
    let name := (skip s).takeWhile fun c => c.isAlphanum || c == '_'
    match sign? ((skip s).drop name.length) with
    | some (sign, rest) =>
      if name.head?.any isNameStart ∧ assigning.contains sign then
        let (t, rest) ← term fuel rest
        return (.assign sign name t, rest)
      else choice fuel s
    | none => choice fuel s

def choice : Nat → Text → Except ArithmeticFault (Term × Text)
  | 0, _ => .error .primary
  | fuel + 1, s => do
    let (c, rest) ← operation fuel levels s
    match sign? rest with
    | some (['?'], rest) =>
      let (a, rest) ← term fuel rest
      match sign? rest with
      | some ([':'], rest) =>
        let (b, rest) ← choice fuel rest
        return (.choose c a b, rest)
      | _ => .error .expression
    | _ => return (c, rest)

def operation : Nat → List (List Text) → Text → Except ArithmeticFault (Term × Text)
  | 0, _, _ => .error .primary
  | fuel + 1, [], s => primary fuel s
  | fuel + 1, level :: tighter, s => do
    let (a, rest) ← operation fuel tighter s
    operationRest fuel level tighter a rest

def operationRest : Nat → List Text → List (List Text) → Term → Text →
    Except ArithmeticFault (Term × Text)
  | 0, _, _, _, _ => .error .primary
  | fuel + 1, level, tighter, a, s => do
    match sign? s with
    | some (sign, rest) =>
      if level.contains sign then
        let (b, rest) ← operation fuel tighter rest
        operationRest fuel level tighter (.binary sign a b) rest
      else return (a, s)
    | none => return (a, s)

def primary : Nat → Text → Except ArithmeticFault (Term × Text)
  | 0, _ => .error .primary
  | fuel + 1, s =>
    match skip s with
    | [] => .error .primary
    | c :: rest =>
      if c = '-' ∨ c = '+' ∨ c = '!' ∨ c = '~' then do
        let (t, rest) ← primary fuel rest
        return (.unary [c] t, rest)
      else if c = '(' then do
        let (t, rest) ← term fuel rest
        match skip rest with
        | ')' :: rest => return (t, rest)
        | _ => .error .unclosed
      else if isNameStart c then
        let isPart := fun c : Char => c.isAlphanum || c == '_'
        .ok (.variable ((c :: rest).takeWhile isPart), (c :: rest).dropWhile isPart)
      else
        match number? (c :: rest) with
        | some (n, rest) => .ok (.number n, rest)
        | none => .error .primary

end

/-- The expression that a text is; an empty one is zero. -/
def parse (s : Text) : Except ArithmeticFault Term :=
  if skip s = [] then .ok (.number 0)
  else do
    let (t, rest) ← term (16 * s.length + 16) s
    if skip rest = [] then return t else .error .expression

def ofBool (b : Bool) : Int := if b then 1 else 0

def onBits (f : Nat → Nat → Nat) (a b : Int) : Int :=
  f (a % 18446744073709551616).toNat (b % 18446744073709551616).toNat

def apply (op : Text) (a b : Int) : Except ArithmeticFault Int :=
  match op with
  | ['+'] => .ok (wrap (a + b))
  | ['-'] => .ok (wrap (a - b))
  | ['*'] => .ok (wrap (a * b))
  | ['/'] => if b = 0 then .error .divisionByZero else .ok (wrap (Int.tdiv a b))
  | ['%'] => if b = 0 then .error .divisionByZero else .ok (Int.tmod a b)
  | ['&'] => .ok (wrap (onBits Nat.land a b))
  | ['|'] => .ok (wrap (onBits Nat.lor a b))
  | ['^'] => .ok (wrap (onBits Nat.xor a b))
  | ['<', '<'] => .ok (wrap (a * (1 <<< (b % 64).toNat : Nat)))
  | ['>', '>'] => .ok (Int.fdiv a (1 <<< (b % 64).toNat : Nat))
  | ['=', '='] => .ok (ofBool (a = b))
  | ['!', '='] => .ok (ofBool (a ≠ b))
  | ['<', '='] => .ok (ofBool (a ≤ b))
  | ['>', '='] => .ok (ofBool (b ≤ a))
  | ['<'] => .ok (ofBool (a < b))
  | _ => .ok (ofBool (b < a))

def eval (get : Text → Text) : Term → List (Text × Text) →
    Except ArithmeticFault (Int × List (Text × Text))
  | .number n, vars => .ok (wrap n, vars)
  | .variable name, vars => do return (← valueOf ((vars.lookup name).getD (get name)), vars)
  | .unary op t, vars => do
    let (n, vars) ← eval get t vars
    match op with
    | ['-'] => return (wrap (-n), vars)
    | ['!'] => return (ofBool (n = 0), vars)
    | ['~'] => return (-n - 1, vars)
    | _ => return (n, vars)
  | .binary op a b, vars => do
    let (x, vars) ← eval get a vars
    if op = ['&', '&'] ∧ x = 0 then return (0, vars)
    else if op = ['|', '|'] ∧ x ≠ 0 then return (1, vars)
    else
      let (y, vars) ← eval get b vars
      if op = ['&', '&'] ∨ op = ['|', '|'] then return (ofBool (y ≠ 0), vars)
      else return (← apply op x y, vars)
  | .assign op name t, vars => do
    let (y, vars) ← eval get t vars
    let n ←
      if op = ['='] then .ok y
      else do apply op.dropLast (← valueOf ((vars.lookup name).getD (get name))) y
    return (n, (name, Text.ofInt n) :: vars)
  | .choose c a b, vars => do
    let (x, vars) ← eval get c vars
    if x ≠ 0 then eval get a vars else eval get b vars

def evaluate (get : Text → Text) (s : Text) :
    Except ArithmeticFault (Int × List (Text × Text)) := do
  eval get (← parse s) []

end Arithmetic

end TexCatalog.Shell
