import TexCatalog.Shell.Syntax
import TexCatalog.Store.Basic

/-!
# Running scripts

The state of a running script has the files, the streams that its channels are connected with, and
the variables. A stream is a text to whose end is written and from whose start is read. All texts
are bytes, but the names of files are not.
-/

namespace TexCatalog.Shell

inductive Channel where
  | stream (n : Nat)
  | contents (n : Nat)
  | file (path : Text)
  | nowhere
  deriving DecidableEq, Repr

/-- What is to be done next. -/
inductive Flow where
  | onward
  | leave (loops : Nat)
  | again (loops : Nat)
  | return
  | exit
  | killed (signal : Nat)
  deriving DecidableEq, Repr

structure State where
  store : Store
  directory : Text := []
  streams : List Text
  channels : List (Nat × Channel) := [(0, .stream 0), (1, .stream 1), (2, .stream 2)]
  values : TextMap Text := ∅
  functions : List (Text × Command) := []
  name : Text
  arguments : List Text
  status : Nat := 0
  line : Nat := 1
  flow : Flow := .onward
  loops : Nat := 0
  /-- Does a command that fails end the script? -/
  stopsOnFailure : Bool := false
  /-- Does a parameter without a value end the script? -/
  stopsOnUnset : Bool := false
  traces : Bool := false
  /-- The command in whose name complaints are made, if it is not the script itself. -/
  title : Text := []
  calledBy : Option Text := none
  filledStatus : Nat := 0
  /-- What is run when a signal comes, and under 0 what is run at the end. -/
  traps : List (Nat × Text) := []
  caught : Text := []
  /-- In a function, the variables that it has of its own with the values that they had before. -/
  hidden : Option (List (Text × Option Text)) := none

namespace State

def withStatus (st : State) (status : Nat) : State := { st with status }

def isRunning (st : State) : Bool := st.flow == .onward

def pathOf (st : State) (bytes : Text) : Text :=
  let path := Text.ofBytes bytes
  if path = [] then [] else Path.join st.directory path

def channel (st : State) (n : Nat) : Channel := (st.channels.lookup n).getD .nowhere

def connect (st : State) (n : Nat) (channel : Channel) : State :=
  { st with channels := (n, channel) :: st.channels.filter (·.1 ≠ n) }

def addStream (st : State) (t : Text) : State × Channel :=
  ({ st with streams := st.streams ++ [t] }, .stream st.streams.length)

def stream (st : State) (n : Nat) : Text := st.streams.getD n []

def setStream (st : State) (n : Nat) (t : Text) : State :=
  { st with streams := st.streams.set n t }

def pending (st : State) (n : Nat) : Text :=
  match st.channel n with
  | .stream k | .contents k => st.stream k
  | _ => []

def setPending (st : State) (n : Nat) (t : Text) : State :=
  match st.channel n with
  | .stream k | .contents k => st.setStream k t
  | _ => st

def emit (st : State) (n : Nat) (t : Text) : State :=
  match st.channel n with
  | .stream k | .contents k => st.setStream k (st.stream k ++ t)
  | .nowhere => st
  | .file path =>
    match st.store.readBytes path with
    | .error _ => st
    | .ok before =>
      match st.store.writeBytes path (before ++ t) with
      | .ok store => { st with store }
      | .error _ => st

def complainAs (st : State) (program t : Text) : State :=
  st.emit 2 (program ++ ": " ++ t ++ ['\n'])

def callingBy (st : State) (path : Text) (f : State → State) : State :=
  { f { st with calledBy := some path } with calledBy := none }

def complain (st : State) (t : Text) : State :=
  let title : Text := if st.title = [] then [] else st.title ++ ": "
  st.complainAs st.name (Text.ofNat st.line ++ ": " ++ title ++ t)

def abort (st : State) (t : Text) : State :=
  { st.complain t with status := 2, flow := .exit }

def valueIn? (st : State) (name : Text) : Option Text := st.values.get? name

def assign (st : State) (name value : Text) : State :=
  { st with values := st.values.insert name value }

def restore (st : State) (name : Text) (value? : Option Text) : State :=
  match value? with
  | some value => st.assign name value
  | none => { st with values := .ofList (st.values.entries.filter (·.1 ≠ name)) }

/-- The number of the script as a process; scripts only tell that it is theirs. -/
def ownNumber : Text := "1000"

def parameter? (st : State) (name : Text) : Option Text :=
  match name with
  | ['#'] => some (Text.ofNat st.arguments.length)
  | ['?'] => some (Text.ofNat st.status)
  | ['$'] => some ownNumber
  | ['!'] => none
  | ['-'] => some ((if st.stopsOnFailure then ['e'] else []) ++
      if st.stopsOnUnset then ['u'] else [])
  | ['0'] => some st.name
  | _ =>
    if name.all Char.isDigit then
      st.arguments[name.foldl (fun n c => n * 10 + (c.toNat - '0'.toNat)) 0 - 1]?
    else st.valueIn? name

def separators (st : State) : Text := (st.valueIn? "IFS").getD " \t\n"

def channelOfPath? (path : Text) : Option Nat :=
  if path = ("/dev/stdin" : Text) ∨ path = ("/dev/fd/0" : Text) then some 0
  else if path = ("/dev/stdout" : Text) ∨ path = ("/dev/fd/1" : Text) then some 1
  else if path = ("/dev/stderr" : Text) ∨ path = ("/dev/fd/2" : Text) then some 2
  else none

def readAll (st : State) (path : Text) : Except FileFault (Text × State) :=
  match channelOfPath? path with
  | some n => .ok (st.pending n, st.setPending n [])
  | none => (st.store.readBytes (st.pathOf path)).map fun t => (t, st)

def openInput (st : State) (path : Text) : Except FileFault (State × Channel) :=
  match channelOfPath? path with
  | some n => .ok (st, st.channel n)
  | none =>
    (st.store.readBytes (st.pathOf path)).map fun t =>
      ((st.addStream t).1, .contents st.streams.length)

/-- A channel that writes to a path; the file there is made empty unless it is appended to. -/
def openOutput (st : State) (append : Bool) (path : Text) : Except FileFault (State × Channel) :=
  match channelOfPath? path with
  | some n => .ok (st, st.channel n)
  | none =>
    let path := st.pathOf path
    if (st.store.node? path).any fun node => node == .sink then .ok (st, .nowhere)
    else if append ∧ st.store.isFile path then .ok (st, .file path)
    else (st.store.writeBytes path []).map fun store => ({ st with store }, .file path)

/-- Do something whose channels and variables are its own, as in a process that is left behind. -/
def apart (st : State) (f : State → State) : State :=
  let new := f st
  { st with
    store := new.store
    streams := new.streams
    status := new.status
    flow :=
      match new.flow with
      | .killed signal => .killed signal
      | _ => .onward }

def capture (st : State) (f : State → State) : Text × State :=
  match st.addStream [] with
  | (inner, channel) =>
    let new := st.apart fun _ => f (inner.connect 1 channel)
    (new.stream st.streams.length, new)

end State

end TexCatalog.Shell
