import TexCatalog.Text.Basic
import TexCatalog.Text.Tables.Case

/-!
# Changing to lower case

Each character is replaced by its lower case. A capital sigma at the end of a word becomes a final
sigma, and a capital I with a dot above becomes an i and a combining dot.
-/

namespace TexCatalog.Text

def CaseRun.has (r : CaseRun) (n : Nat) : Bool :=
  r.first ≤ n && n ≤ r.last && (n - r.first) % r.step == 0

def lowerChar (c : Char) : Text :=
  if c = '\u0130' then ['i', '\u0307']
  else
    match lowercaseRuns.find? (·.has c.toNat) with
    | none => [c]
    | some r => [Char.ofNat ((c.toNat : Int) + r.shift).toNat]

/-- Is the first character that counts for case a cased one? -/
def meetsCased (s : Text) : Bool :=
  match s.dropWhile fun c => caseIgnorable.has c.toNat with
  | [] => false
  | c :: _ => cased.has c.toNat

/-- Change to lower case; `before` is the text in front, read backwards. -/
def lowerFrom (before : Text) : Text → Text
  | [] => []
  | c :: s =>
    (if c = '\u03a3' then
      if meetsCased before && !meetsCased s then ['\u03c2'] else ['\u03c3']
    else lowerChar c) ++ lowerFrom (c :: before) s

def lower (s : Text) : Text := lowerFrom [] s

end TexCatalog.Text
