import TexCatalog.Shell.Run

/-!
# Running programs

A program is run with arguments on an input and may change files. A path leads to a script among the
files or to a program of the system; a mere name is the name of one of those.
-/

namespace TexCatalog

inductive ProgramEnd where
  | exited (status : Nat)
  | killed (signal : Nat)
  deriving DecidableEq, Repr

/-- What is known of a program that has been run. Its outputs are bytes. -/
structure Outcome where
  ending : ProgramEnd
  output : Text
  complaints : Text
  unread : Nat

namespace Store

def maxSteps : Nat := 1000000

def startState (s : Store) (program input : Text) : Shell.State where
  store := s
  streams := [Text.encode input, [], []]
  name := program
  arguments := []

def outcome (st : Shell.State) : Outcome where
  ending :=
    match st.flow with
    | .killed signal => .killed signal
    | _ => .exited st.status
  output := st.stream 1
  complaints := st.stream 2
  unread := (st.stream 0).length

def run (s : Store) (program : Text) (arguments : List Text) (input : Text) :
    Except FileFault (Outcome × Store) :=
  let name := Text.encode program
  let start := s.startState name input
  let finish (st : Shell.State) : Except FileFault (Outcome × Store) := .ok (outcome st, st.store)
  if program.contains (Char.ofNat 0) then .error .nulInCommand
  else if program.contains '/' then
    if Shell.shells.contains name then finish (Shell.runShell maxSteps name arguments start)
    else
      match Shell.programAt s name with
      | .error fault => .error fault
      | .ok (.utility path f words) =>
        finish (start.callingBy path (f · (words ++ arguments)))
      | .ok (.shell shell words) =>
        finish (Shell.runShell maxSteps shell (words ++ arguments) start)
  else if Path.isLongName program then .error .nameTooLong
  else if Path.isDots program then .error .denied
  else if Shell.shells.contains ("/bin/" ++ name) then
    finish (Shell.runShell maxSteps name arguments start)
  else
    match Shell.program? name with
    | some f => finish (f start arguments)
    | none => .error .notFound

end Store

end TexCatalog
