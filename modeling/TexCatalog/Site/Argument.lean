import TexCatalog.Text.Basic

/-!
# Command-line arguments

Arguments are options and words. The value of an option stands behind it in the same argument or is
the next argument; a double hyphen makes words of all arguments behind it.
-/

namespace TexCatalog

inductive Argument where
  | config (file : Text)
  | help
  | version
  | word (w : Text)
  | separator
  | wrong
  deriving DecidableEq, Repr

namespace Argument

def ofValue (file : Text) : Argument := if file = [] then .wrong else .config file

def isOption : Text → Bool
  | '-' :: _ :: _ => true
  | _ => false

def ofNext (arg : Text) : Argument := if isOption arg then .wrong else ofValue arg

/-- What an option says that is complete in its argument; `none` if its value is the next one. -/
def ofOption? : Text → Option Argument
  | ['-', '-'] => some .separator
  | '-' :: '-' :: name =>
    if name = ("config" : Text) then none
    else if name = ("help" : Text) then some .help
    else if name = ("version" : Text) then some .version
    else
      match Text.cut? ['='] name with
      | some (name, file) => some (if name = ("config" : Text) then ofValue file else .wrong)
      | none => some .wrong
  | ['-', 'c'] => none
  | '-' :: 'c' :: '=' :: file => some (ofValue file)
  | '-' :: 'c' :: file => some (ofValue file)
  | '-' :: 'h' :: _ => some .help
  | '-' :: 'V' :: _ => some .version
  | _ => some .wrong

def read : List Text → List Argument
  | [] => []
  | arg :: rest =>
    if isOption arg then
      match ofOption? arg with
      | some .separator => .separator :: rest.map .word
      | some a => a :: read rest
      | none =>
        match rest with
        | [] => [.wrong]
        | file :: rest => ofNext file :: read rest
    else .word arg :: read rest

end Argument

end TexCatalog
