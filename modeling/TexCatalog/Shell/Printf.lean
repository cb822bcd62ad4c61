import TexCatalog.Shell.Arithmetic

/-!
# Printing in scripts

What `echo` and `printf` write for their arguments. Both replace escapes behind backslashes;
`printf` fills its arguments into a pattern, which is used again as long as arguments are left.
-/

namespace TexCatalog.Shell

/-- The character that a letter behind a backslash stands for. -/
def escapedChar? (c : Char) : Option Char :=
  if c = 'a' then some '\x07'
  else if c = 'b' then some '\x08'
  else if c = 'f' then some '\x0c'
  else if c = 'n' then some '\n'
  else if c = 'r' then some '\r'
  else if c = 't' then some '\t'
  else if c = 'v' then some '\x0b'
  else if c = '\\' then some '\\'
  else none

def isOctal (c : Char) : Bool := '0' ≤ c && c ≤ '7'

/-- What an escape behind its backslash stands for, and the rest. -/
def escape (s : Text) : Char × Text :=
  let digits := (s.take 3).takeWhile isOctal
  if digits ≠ [] then
    (Char.ofNat (Arithmetic.natOf 8 digits % 256), s.drop digits.length)
  else
    match s with
    | [] => ('\\', [])
    | c :: rest =>
      match escapedChar? c with
      | some d => (d, rest)
      | none => ('\\', s)

/-- The text with its escapes replaced, and whether it is not ended by an escape `\c`. -/
def unescape : Nat → Text → Text × Bool
  | 0, _ => ([], true)
  | _, [] => ([], true)
  | fuel + 1, c :: s =>
    if c ≠ '\\' then (c :: (unescape fuel s).1, (unescape fuel s).2)
    else if s.head? = some 'c' then ([], false)
    else
      let s := if s.head? = some '0' ∧ s.tail.head?.any isOctal then s.tail else s
      let (d, rest) := escape s
      (d :: (unescape fuel rest).1, (unescape fuel rest).2)

def echo (arguments : List Text) : Text :=
  let quiet := arguments.head? = some ("-n" : Text)
  let words := if quiet then arguments.tail else arguments
  let line := Text.join [' '] words
  let (t, whole) := unescape line.length line
  if whole ∧ !quiet then t ++ ['\n'] else t

structure Directive where
  flags : Text
  width : Nat
  precision : Option Nat
  kind : Char

/-- What `printf` has written, what it complains about, and the arguments that are left. -/
structure Printed where
  output : Text := []
  complaints : List Text := []
  broken : Bool := false
  arguments : List Text

def directiveNumber (s : Text) (arguments : List Text) : Nat × Text × List Text :=
  match s with
  | '*' :: rest =>
    (((arguments.head?.bind Arithmetic.number?).map Prod.fst).getD 0, rest, arguments.tail)
  | _ => (Arithmetic.natOf 10 (s.takeWhile Char.isDigit), s.dropWhile Char.isDigit, arguments)

/-- The directive behind a percent sign, the rest, and the arguments that are left. -/
def directive? (s : Text) (arguments : List Text) : Option (Directive × Text × List Text) :=
  let isFlag := fun c : Char => ("#-+ 0" : Text).contains c
  let (width, rest, arguments) := directiveNumber (s.dropWhile isFlag) arguments
  let (precision, rest, arguments) :=
    match rest with
    | '.' :: rest =>
      let (n, rest, arguments) := directiveNumber rest arguments
      (some n, rest, arguments)
    | rest => (none, rest, arguments)
  match rest with
  | [] => none
  | kind :: rest => some (⟨s.takeWhile isFlag, width, precision, kind⟩, rest, arguments)

namespace Directive

/-- Widen a text to the width, behind it or in front of it. -/
def pad (d : Directive) (t : Text) : Text :=
  let blanks := List.replicate (d.width - t.length) ' '
  if d.flags.contains '-' then t ++ blanks else blanks ++ t

def ofText (d : Directive) (t : Text) : Text :=
  d.pad (match d.precision with | some n => t.take n | none => t)

def ofDigits (d : Directive) (sign digits : Text) : Text :=
  let digits :=
    match d.precision with
    | some n => List.replicate (n - digits.length) '0' ++ digits
    | none =>
      if d.flags.contains '0' ∧ !d.flags.contains '-' then
        List.replicate (d.width - sign.length - digits.length) '0' ++ digits
      else digits
  d.pad (sign ++ digits)

def ofInt (d : Directive) (n : Int) : Text :=
  let sign : Text :=
    if n < 0 then ['-'] else if d.flags.contains '+' then ['+']
    else if d.flags.contains ' ' then [' '] else []
  d.ofDigits sign (Text.ofNat n.natAbs)

/-- A number without a sign in the base of the directive. -/
def ofNat (d : Directive) (n : Nat) : Text :=
  let alternate := d.flags.contains '#' && n != 0
  if d.kind = 'o' then d.ofDigits (if alternate then ['0'] else []) (Nat.toDigits 8 n)
  else if d.kind = 'x' then d.ofDigits (if alternate then ['0', 'x'] else []) (Nat.toDigits 16 n)
  else if d.kind = 'X' then
    d.ofDigits (if alternate then ['0', 'X'] else []) ((Nat.toDigits 16 n).map Char.toUpper)
  else d.ofDigits [] (Text.ofNat n)

end Directive

def argumentNumber (t : Text) : Int × List Text :=
  let s := Arithmetic.skip t
  match s with
  | [] => (0, if t = [] then [] else [t ++ ": expected numeric value"])
  | '"' :: c :: _ => (c.toNat, [])
  | '\'' :: c :: _ => (c.toNat, [])
  | _ =>
    let digits := if s.head? = some '-' ∨ s.head? = some '+' then s.tail else s
    match Arithmetic.number? digits with
    | none => (0, [t ++ ": expected numeric value"])
    | some (n, rest) =>
      (if s.head? = some '-' then -(n : Int) else n,
        if rest = [] then [] else [t ++ ": not completely converted"])

def fillDirective (d : Directive) (argument : Text) : Text × List Text × Bool :=
  if d.kind = 's' then (d.ofText argument, [], true)
  else if d.kind = 'c' then (d.ofText (argument.take 1), [], true)
  else if d.kind = 'b' then
    let (t, whole) := unescape argument.length argument
    (d.ofText t, [], whole)
  else if d.kind = 'd' ∨ d.kind = 'i' then
    let (n, complaints) := argumentNumber argument
    (d.ofInt n, complaints, true)
  else if ("ouxX" : Text).contains d.kind then
    let (n, complaints) := argumentNumber argument
    (d.ofNat (n % 18446744073709551616).toNat, complaints, true)
  else ([], ["%" ++ d.flags ++ [d.kind] ++ ": invalid directive"], false)

def fillPattern : Nat → Text → Printed → Printed × Bool
  | 0, _, p => (p, false)
  | _, [], p => (p, true)
  | fuel + 1, c :: s, p =>
    let put := fun (t : Text) => { p with output := p.output ++ t }
    if c = '\\' then
      let (d, rest) := escape s
      fillPattern fuel rest (put [d])
    else if c ≠ '%' then
      let isPlain := fun c : Char => c != '\\' && c != '%'
      fillPattern fuel (s.dropWhile isPlain) (put (c :: s.takeWhile isPlain))
    else if s.head? = some '%' then fillPattern fuel s.tail (put ['%'])
    else
      match directive? s p.arguments with
      | none =>
        ({ p with
          complaints := p.complaints ++ [("missing format character" : Text)]
          broken := true }, false)
      | some (d, rest, arguments) =>
        let (t, complaints, goesOn) := fillDirective d (arguments.headD [])
        let p : Printed :=
          ⟨p.output ++ t, p.complaints ++ complaints, !goesOn && d.kind ≠ 'b', arguments.tail⟩
        if goesOn then fillPattern fuel rest p else (p, false)

def printf : Nat → Text → Printed → Printed
  | 0, _, p => p
  | fuel + 1, pattern, p =>
    let (q, goesOn) := fillPattern (pattern.length + 1) pattern p
    if goesOn ∧ q.arguments ≠ [] ∧ q.arguments.length < p.arguments.length then
      printf fuel pattern q
    else q

end TexCatalog.Shell
