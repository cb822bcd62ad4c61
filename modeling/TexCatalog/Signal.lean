import TexCatalog.Text.Basic

/-!
# Signals

A program may be ended by a signal. Signals have numbers from 1 on, and most have names.
-/

namespace TexCatalog.Signal

def names : List Text :=
  ["HUP", "INT", "QUIT", "ILL", "TRAP", "ABRT", "BUS", "FPE", "KILL", "USR1", "SEGV", "USR2",
    "PIPE", "ALRM", "TERM", "STKFLT", "CHLD", "CONT", "STOP", "TSTP", "TTIN", "TTOU", "URG", "XCPU",
    "XFSZ", "VTALRM", "PROF", "WINCH", "IO", "PWR", "SYS"]

def label (signal : Nat) : Text :=
  if signal = 0 then []
  else ((names[signal - 1]?).map fun name => " (SIG" ++ name ++ [')']).getD []

def number? (name : Text) : Option Nat := (names.findIdx? (· == name)).map (· + 1)

def isHarmless (signal : Nat) : Bool := [17, 18, 23, 28].contains signal

end TexCatalog.Signal
