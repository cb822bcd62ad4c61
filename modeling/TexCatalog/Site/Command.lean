import TexCatalog.Site.Argument
import TexCatalog.Site.Project

/-!
# Commands

A command line names a task and may name a configuration file. It is read from the left: a wish for
help or for the version is met where it stands, unless something before it is wrong.
-/

namespace TexCatalog

inductive Task where
  | walk (files : List Text)
  | merge
  | render
  | build
  deriving DecidableEq, Repr

namespace Task

def ofName? (name : Text) : Option Task :=
  if name = ("walk" : Text) then some (.walk [])
  else if name = ("merge" : Text) then some .merge
  else if name = ("render" : Text) then some .render
  else if name = ("build" : Text) then some .build
  else none

/-- The task with one more word behind its name; only a walk takes words. -/
def addWord? (w : Text) : Task → Option Task
  | .walk files => if w = [] then none else some (.walk (files ++ [w]))
  | _ => none

def run (p : Project) : Task → Stage Report
  | .walk [] => do p.walk (← p.sources)
  | .walk files => p.walk files
  | .merge => p.merge
  | .render => p.render
  | .build => p.build

end Task

inductive Request where
  | run (config : Option Text) (task : Task)
  | help
  | version
  | misuse
  deriving DecidableEq, Repr

namespace Request

/-- Read what stands behind the name of a task. A configuration file that is named there goes before
one that is named in front of the task. -/
def ofTask (outer inner : Option Text) (task : Task) : List Argument → Request
  | [] => .run (inner.or outer) task
  | .config file :: more =>
    if inner.isSome then .misuse else ofTask outer (some file) task more
  | .word w :: more =>
    match task.addWord? w with
    | none => .misuse
    | some task => ofTask outer inner task more
  | .separator :: more => ofTask outer inner task more
  | .help :: _ => .help
  | .version :: _ | .wrong :: _ => .misuse

/-- Read what stands behind the word `help`: nothing or the name of a task. -/
def ofHelp : List Argument → Request
  | [] => .help
  | [.word w] => if w = ("help" : Text) ∨ (Task.ofName? w).isSome then .help else .misuse
  | _ => .misuse

def ofArguments (config : Option Text) : List Argument → Request
  | [] => .misuse
  | .config file :: more => if config.isSome then .misuse else ofArguments (some file) more
  | .word w :: more =>
    if w = ("help" : Text) then ofHelp more
    else
      match Task.ofName? w with
      | none => .misuse
      | some task => ofTask config none task more
  | .help :: _ => .help
  | .version :: _ => .version
  | .separator :: _ | .wrong :: _ => .misuse

def ofTexts (args : List Text) : Request := ofArguments none (Argument.read args)

def perform (env : Text → Option Text) (today : Date) (config : Option Text) (task : Task) :
    Stage Report := do
  let config ← Config.load config env
  let project ← Project.load config today
  task.run project

end Request

inductive Ending where
  | report (r : Report)
  | failure (e : Failure)
  | help
  | version
  | misuse
  deriving DecidableEq, Repr

/-- The exit status of a failure; a text that cannot be cut has one of its own. -/
def Failure.exitStatus : Failure → Nat
  | .splitCharacter => 101
  | _ => 2

namespace Ending

def ofExcept : Except Failure Report → Ending
  | .ok r => .report r
  | .error e => .failure e

def exitStatus : Ending → Nat
  | .report r => r.exitCode
  | .failure e => e.exitStatus
  | .help | .version => 0
  | .misuse => 2

end Ending

def Request.meet (env : Text → Option Text) (today : Date) (s : Store) : Request → Ending × Store
  | .run config task =>
    let r := Request.perform env today config task s
    (.ofExcept r.1, r.2)
  | .help => (.help, s)
  | .version => (.version, s)
  | .misuse => (.misuse, s)

end TexCatalog
